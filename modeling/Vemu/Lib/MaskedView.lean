import Mathlib.Tactic.Ring

/-!
# A view of some of the bits of a word

`replace mask x v` has the bits under the mask from `v` and the others from `x`.  Reading under
the mask and writing with `replace` obey the three laws of a view: what was written is read
(`replace_and_mask`), writing back what was read changes nothing (`replace_and_self`), and of
two writes the last one counts (`replace_replace`).
-/

namespace MaskedView

variable {w : ℕ} (mask x v v' : BitVec w)

/-! ## Masks without bits

The library has the first three for `0#w`, which `rw` does not find at the numeral. -/

@[simp] lemma and_zero : x &&& (0 : BitVec w) = 0 := BitVec.and_zero

@[simp] lemma or_zero : x ||| (0 : BitVec w) = x := BitVec.or_zero

@[simp] lemma zero_or : (0 : BitVec w) ||| x = x := BitVec.zero_or

/-- Clearing no bits. -/
@[simp] lemma and_not_zero : x &&& ~~~(0 : BitVec w) = x := by
  rw [show (0 : BitVec w) = 0#w from rfl, BitVec.not_zero, BitVec.and_allOnes]

/-! ## Reading and writing under a mask -/

/-- The bits under the mask from `v`, the others from `x`. -/
def replace : BitVec w := (x &&& ~~~mask) ||| (v &&& mask)

lemma getLsbD_replace (i : ℕ) :
    (replace mask x v).getLsbD i = if mask.getLsbD i then v.getLsbD i else x.getLsbD i := by
  rw [replace, BitVec.getLsbD_or, BitVec.getLsbD_and, BitVec.getLsbD_and, BitVec.getLsbD_not]
  by_cases hi : i < w
  · cases mask.getLsbD i <;> simp [hi]
  · rw [BitVec.getLsbD_of_ge mask i (Nat.le_of_not_lt hi),
      BitVec.getLsbD_of_ge x i (Nat.le_of_not_lt hi)]
    simp

@[simp] lemma replace_and_mask : replace mask x v &&& mask = v &&& mask := by
  apply BitVec.eq_of_getLsbD_eq
  intro i _
  rw [BitVec.getLsbD_and, BitVec.getLsbD_and, getLsbD_replace]
  cases mask.getLsbD i <;> simp

@[simp] lemma replace_and_self : replace mask x (x &&& mask) = x := by
  apply BitVec.eq_of_getLsbD_eq
  intro i _
  rw [getLsbD_replace, BitVec.getLsbD_and]
  cases mask.getLsbD i <;> simp

@[simp] lemma replace_replace : replace mask (replace mask x v) v' = replace mask x v' := by
  apply BitVec.eq_of_getLsbD_eq
  intro i _
  simp only [getLsbD_replace]
  cases mask.getLsbD i <;> simp

/-- Only the bits under the mask are left exactly if there were no others. -/
lemma and_mask_eq_replace_iff : v &&& mask = replace mask x v ↔ x &&& ~~~mask = 0 := by
  constructor
  · intro h
    apply BitVec.eq_of_getLsbD_eq
    intro i hi
    have hbit := congrArg (·.getLsbD i) h
    simp only [BitVec.getLsbD_and, getLsbD_replace] at hbit
    rw [BitVec.getLsbD_and, BitVec.getLsbD_not, show (0 : BitVec w) = 0#w from rfl,
      BitVec.getLsbD_zero]
    cases hm : mask.getLsbD i with
    | true => simp
    | false =>
        rw [hm, Bool.and_false, if_neg Bool.false_ne_true] at hbit
        rw [← hbit, Bool.false_and]
  · intro h
    rw [replace, h]
    simp

/-- Setting bits changes nothing exactly if they are set. -/
lemma or_mask_eq_self_iff : x ||| mask = x ↔ x &&& mask = mask := by
  constructor
  · intro h
    rw [← h]
    apply BitVec.eq_of_getLsbD_eq
    intro i _
    rw [BitVec.getLsbD_and, BitVec.getLsbD_or]
    cases mask.getLsbD i <;> simp
  · intro h
    rw [← h]
    apply BitVec.eq_of_getLsbD_eq
    intro i _
    rw [BitVec.getLsbD_or, BitVec.getLsbD_and]
    cases x.getLsbD i <;> simp

/-- Setting the bits of a mask does not change the bits that are left when they are cleared. -/
lemma or_mask_and_not : (x ||| mask) &&& ~~~mask = x &&& ~~~mask := by
  apply BitVec.eq_of_getLsbD_eq
  intro i hi
  rw [BitVec.getLsbD_and, BitVec.getLsbD_and, BitVec.getLsbD_or, BitVec.getLsbD_not]
  cases mask.getLsbD i <;> simp

end MaskedView
