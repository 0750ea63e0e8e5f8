import Mathlib.Tactic.Linarith

/-!
# Signed arithmetic that may overflow

In a language in which signed overflow is undefined, a sum is the exact one, or nothing if the type
does not have it (`intAdd`, and likewise `intSub` and `intMul`).  Where the type has it, it is the sum
of machine words, which wraps (`intAdd_eq`).

Whether an operation is safe can be told from its operands, without overflow on the way: a sum and
a difference by comparing one operand with what the other leaves of the range, a product by
dividing the range (`isSome_intAdd_iff`, `isSome_intSub_iff`, `isSome_intMul_iff`).
-/

namespace SignedArithmetic

variable {w : ℕ} {a b : BitVec w} {z : ℤ}

/-- The integers that a signed type of the given width has. -/
def Representable (w : ℕ) (z : ℤ) : Prop := -2 ^ (w - 1) ≤ z ∧ z < 2 ^ (w - 1)

instance (w : ℕ) (z : ℤ) : Decidable (Representable w z) := inferInstanceAs (Decidable (_ ∧ _))

/-- An exact result, if the type has it. -/
def exactly (w : ℕ) (z : ℤ) : Option (BitVec w) :=
  if Representable w z then some (BitVec.ofInt w z) else none

def intAdd (a b : BitVec w) : Option (BitVec w) := exactly w (a.toInt + b.toInt)
def intSub (a b : BitVec w) : Option (BitVec w) := exactly w (a.toInt - b.toInt)
def intMul (a b : BitVec w) : Option (BitVec w) := exactly w (a.toInt * b.toInt)

lemma isSome_exactly_iff : (exactly w z).isSome = true ↔ Representable w z := by
  unfold exactly
  split_ifs with h
  · simp [h]
  · simp [h]

/-- Every word is an integer of the type. -/
lemma representable_toInt (a : BitVec w) : Representable w a.toInt := ⟨a.le_toInt, BitVec.toInt_lt⟩

/-! ## Operands -/

/-- What the second operand leaves of the range above or below has room for the first. -/
def SafeAdd (a b : BitVec w) : Prop :=
  (0 ≤ b.toInt → a.toInt ≤ 2 ^ (w - 1) - 1 - b.toInt)
    ∧ (b.toInt < 0 → -2 ^ (w - 1) - b.toInt ≤ a.toInt)

def SafeSub (a b : BitVec w) : Prop :=
  (0 ≤ b.toInt → -2 ^ (w - 1) + b.toInt ≤ a.toInt)
    ∧ (b.toInt < 0 → a.toInt ≤ 2 ^ (w - 1) - 1 + b.toInt)

/-- The size of the first operand is at most the largest size of a product of that sign, divided by
the size of the second. -/
def SafeMul (a b : BitVec w) : Prop :=
  b.toInt ≠ 0 →
    a.toInt.natAbs ≤ (if a.toInt < 0 ↔ b.toInt < 0 then 2 ^ (w - 1) - 1 else 2 ^ (w - 1)) / b.toInt.natAbs

instance (a b : BitVec w) : Decidable (SafeAdd a b) := inferInstanceAs (Decidable (_ ∧ _))
instance (a b : BitVec w) : Decidable (SafeSub a b) := inferInstanceAs (Decidable (_ ∧ _))
instance (a b : BitVec w) : Decidable (SafeMul a b) := inferInstanceAs (Decidable (_ → _))

/-- **A sum** is in the type exactly if the operands are safe. -/
lemma isSome_intAdd_iff : (intAdd a b).isSome = true ↔ SafeAdd a b := by
  obtain ⟨hlo, hhi⟩ := representable_toInt a
  rw [intAdd, isSome_exactly_iff, Representable, SafeAdd]
  generalize (2 : ℤ) ^ (w - 1) = limit at *
  omega

/-- **A difference** is in the type exactly if the operands are safe. -/
lemma isSome_intSub_iff : (intSub a b).isSome = true ↔ SafeSub a b := by
  obtain ⟨hlo, hhi⟩ := representable_toInt a
  rw [intSub, isSome_exactly_iff, Representable, SafeSub]
  generalize (2 : ℤ) ^ (w - 1) = limit at *
  omega

/-- The sizes of the integers of the type. -/
lemma representable_iff_natAbs :
    Representable w z ↔ (z < 0 → z.natAbs ≤ 2 ^ (w - 1)) ∧ (0 ≤ z → z.natAbs < 2 ^ (w - 1)) := by
  have hcast : ((2 ^ (w - 1) : ℕ) : ℤ) = 2 ^ (w - 1) := by push_cast; rfl
  rw [Representable, ← hcast]
  generalize 2 ^ (w - 1) = limit
  omega

/-- **A product** is in the type exactly if the operands are safe. -/
lemma isSome_intMul_iff : (intMul a b).isSome = true ↔ SafeMul a b := by
  rw [intMul, isSome_exactly_iff, representable_iff_natAbs, Int.natAbs_mul, SafeMul]
  have hpos : 0 < 2 ^ (w - 1) := Nat.two_pow_pos _
  by_cases hb : b.toInt = 0
  · simp [hb]
  · rw [forall_prop_of_true hb, Nat.le_div_iff_mul_le (Int.natAbs_pos.mpr hb)]
    by_cases hsame : a.toInt < 0 ↔ b.toInt < 0
    · have hproduct : ¬ a.toInt * b.toInt < 0 := by
        rw [mul_neg_iff]
        omega
      rw [if_pos hsame]
      omega
    · rw [if_neg hsame]
      by_cases ha : a.toInt = 0
      · simp [ha]
      · have hproduct : a.toInt * b.toInt < 0 := by
          rw [mul_neg_iff]
          omega
        omega

/-! ## Wrapping -/

/-- An exact result in terms of a condition and of a machine word. -/
lemma exactly_eq_ite {safe : Prop} [Decidable safe] {v : BitVec w}
    (hsafe : (exactly w z).isSome = true ↔ safe) (hv : BitVec.ofInt w z = v) :
    exactly w z = if safe then some v else none := by
  by_cases h : safe
  · rw [if_pos h, exactly, if_pos (isSome_exactly_iff.mp (hsafe.mpr h)), hv]
  · rw [if_neg h, ← Option.not_isSome_iff_eq_none, hsafe]
    exact h

/-- **Where the operands are safe**, the sum is the one of the machine words. -/
lemma intAdd_eq (a b : BitVec w) : intAdd a b = if SafeAdd a b then some (a + b) else none :=
  exactly_eq_ite isSome_intAdd_iff (by rw [BitVec.ofInt_add, BitVec.ofInt_toInt, BitVec.ofInt_toInt])

/-- **Where the operands are safe**, the difference is the one of the machine words. -/
lemma intSub_eq (a b : BitVec w) : intSub a b = if SafeSub a b then some (a - b) else none := by
  refine exactly_eq_ite isSome_intSub_iff ?_
  rw [BitVec.sub_eq_add_neg, Int.sub_eq_add_neg, BitVec.ofInt_add, BitVec.ofInt_toInt, BitVec.ofInt_neg,
    BitVec.ofInt_toInt]

/-- **Where the operands are safe**, the product is the one of the machine words. -/
lemma intMul_eq (a b : BitVec w) : intMul a b = if SafeMul a b then some (a * b) else none :=
  exactly_eq_ite isSome_intMul_iff (by rw [BitVec.ofInt_mul, BitVec.ofInt_toInt, BitVec.ofInt_toInt])

end SignedArithmetic
