import Vemu.Lib.BinaryFloat
import Vemu.Run

/-!
# Floats and doubles of the host

A `float` is its pattern of 32 bits and a `double` one of 64.  The functions are those of C and C++
that the float handlers call, under their names: what they do to numbers is the arithmetic of
`BinaryFloat`, with rounding to the nearest, and what they do to signs is done to the bit.

The float registers are doubles.  A float that goes into one comes out again unless it is a NaN
(`toFloat_toDouble`).
-/

namespace Vemu

open BinaryFloat

def binary32 : Format := ⟨8, 23⟩

def binary64 : Format := ⟨11, 52⟩

/-! ## Conversions -/

/-- `static_cast<double>` of a float. -/
def toDouble (x : U32) : U64 := pack 64 (binary32.convert binary64 (unpack x))

/-- `static_cast<float>` of a double. -/
def toFloat (x : U64) : U32 := pack 32 (binary64.convert binary32 (unpack x))

/-- `static_cast<float>` of an integer. -/
def ofInteger (i : ℤ) : U32 :=
  pack 32 (binary32.round (decide (i < 0)) (i.natAbs * 2 ^ binary32.unit) 0)

/-- `std::round`, as an integer: to the nearest, and away from zero if there are two.  The others
have none. -/
def roundedToInteger (x : U32) : Option ℤ :=
  if binary32.inf ≤ (unpack x).mag then none
  else
    let half := 2 ^ (binary32.unit - 1)
    let n := (scaled binary32.fracBits (unpack x).mag + half) / 2 ^ binary32.unit
    some (if (unpack x).neg then -n else n)

/-! ## Signs -/

def signMask : U32 := 0x80000000

def signbit (x : U32) : Bool := x.msb

/-- The unary minus. -/
def negf (x : U32) : U32 := x ^^^ signMask

def fabsf (x : U32) : U32 := x &&& ~~~signMask

def copysignf (x y : U32) : U32 := fabsf x ||| (y &&& signMask)

/-! ## Kinds of numbers -/

inductive FpClass
  | FP_NAN | FP_INFINITE | FP_ZERO | FP_SUBNORMAL | FP_NORMAL
  deriving DecidableEq, Repr

def fpclassify (x : U32) : FpClass :=
  let mag := (unpack x).mag
  if binary32.inf < mag then .FP_NAN
  else if mag = binary32.inf then .FP_INFINITE
  else if mag = 0 then .FP_ZERO
  else if mag < 2 ^ binary32.fracBits then .FP_SUBNORMAL
  else .FP_NORMAL

def isnan (x : U32) : Bool := fpclassify x = .FP_NAN

def isinf (x : U32) : Bool := fpclassify x = .FP_INFINITE

/-! ## Comparisons -/

/-- Numbers are ordered as their magnitudes are.  Both zeros have the same place. -/
def place (x : U32) : ℤ := if (unpack x).neg then -(unpack x).mag else (unpack x).mag

def isequal (x y : U32) : Bool := !isnan x && !isnan y && place x = place y

def isless (x y : U32) : Bool := !isnan x && !isnan y && place x < place y

def islessequal (x y : U32) : Bool := !isnan x && !isnan y && place x ≤ place y

def fminf (x y : U32) : U32 :=
  if isnan x then y else if isnan y then x else if place y < place x then y else x

def fmaxf (x y : U32) : U32 :=
  if isnan x then y else if isnan y then x else if place x < place y then y else x

/-! ## The fused operation -/

/-- `std::fma` of floats. -/
def fmaf (x y z : U32) : U32 := pack 32 (binary32.fma (unpack x) (unpack y) (unpack z))

/-! ## Values -/

/-- A number, neither infinite nor a NaN. -/
def IsFinite (x : U32) : Prop := (unpack x).mag < binary32.inf

instance : DecidablePred IsFinite := fun _ => inferInstanceAs (Decidable (_ < _))

/-- The value of a finite float. -/
def valueOf (x : U32) : ℚ := binary32.value (unpack x)

variable {x y z : U32}

lemma extends_binary64 : binary32.Extends binary64 where
  expBits := by decide
  fracBits := by decide
  unit := by decide
  range := by decide

lemma isnan_eq_false_iff : isnan x = false ↔ (unpack x).mag ≤ binary32.inf := by
  unfold isnan fpclassify
  dsimp only
  split_ifs with hnan
  · simp [hnan]
  all_goals simp [Nat.le_of_not_lt hnan]

/-- **A float register keeps a float** that is not a NaN. -/
theorem toFloat_toDouble (h : isnan x = false) : toFloat (toDouble x) = x := by
  have hmag : (binary32.convert binary64 (unpack x)).mag < 2 ^ 63 := by
    rcases (isnan_eq_false_iff.mp h).lt_or_eq with hlt | heq
    · obtain ⟨m, hm, hconv, -⟩ := Format.convert_finite extends_binary64 hlt
      rw [hconv]
      exact lt_trans hm (by decide)
    · rw [Format.convert, if_neg heq.not_gt, if_pos heq]
      change binary64.inf < 2 ^ 63
      decide
  rw [toFloat, toDouble, unpack_pack (by decide) hmag,
    Format.convert_convert extends_binary64 (isnan_eq_false_iff.mp h), pack_unpack (by decide)]

/-- Two floats that are stored alike are the same. -/
lemma toDouble_inj (hx : isnan x = false) (hy : isnan y = false) (h : toDouble x = toDouble y) :
    x = y := by
  rw [← toFloat_toDouble hx, h, toFloat_toDouble hy]

lemma IsFinite.isnan (h : IsFinite x) : isnan x = false := isnan_eq_false_iff.mpr (le_of_lt h)

/-- What is not a number is not one after it was kept either. -/
lemma not_isFinite_toFloat_toDouble (h : ¬ IsFinite x) : ¬ IsFinite (toFloat (toDouble x)) := by
  cases hnan : isnan x with
  | false => rwa [toFloat_toDouble hnan]
  | true =>
      have hx : binary32.inf < (unpack x).mag := by
        by_contra hle
        rw [isnan_eq_false_iff.mpr (Nat.le_of_not_lt hle)] at hnan
        cases hnan
      have hd : unpack (toDouble x) = binary32.convert binary64 (unpack x) := by
        refine unpack_pack (by decide) ?_
        rw [Format.convert, if_pos hx]
        exact lt_of_lt_of_le (Format.convertNaN_lt _ (by decide) _) (by decide)
      have hdnan : binary64.inf < (unpack (toDouble x)).mag := by
        rw [hd, Format.convert, if_pos hx]
        exact Format.inf_lt_convertNaN ..
      have hf : unpack (toFloat (toDouble x))
          = binary64.convert binary32 (unpack (toDouble x)) := by
        refine unpack_pack (by decide) ?_
        rw [Format.convert, if_pos hdnan]
        exact lt_of_lt_of_le (Format.convertNaN_lt _ (by decide) _) (by decide)
      rw [IsFinite, hf, Format.convert, if_pos hdnan]
      exact (Format.inf_lt_convertNaN ..).not_gt

/-- **The fused operation** where its result need not be rounded. -/
theorem valueOf_fmaf (hx : IsFinite x) (hy : IsFinite y) (hz : IsFinite z)
    (h : binary32.Represents (valueOf x * valueOf y + valueOf z)) :
    IsFinite (fmaf x y z) ∧ valueOf (fmaf x y z) = valueOf x * valueOf y + valueOf z := by
  obtain ⟨hfin, hvalue⟩ := Format.value_fma hx hy hz h
  have hunpack : unpack (fmaf x y z) = binary32.fma (unpack x) (unpack y) (unpack z) :=
    unpack_pack (by decide) (lt_trans hfin (by decide))
  rw [IsFinite, valueOf, hunpack]
  exact ⟨hfin, hvalue⟩

lemma not_isFinite_fmaf (hz : ¬ IsFinite z) : ¬ IsFinite (fmaf x y z) := by
  have hmag := @Format.fma_mag_of_inf_le binary32 (unpack x) (unpack y) (unpack z)
    (Nat.le_of_not_lt hz)
  have hunpack : unpack (fmaf x y z) = binary32.fma (unpack x) (unpack y) (unpack z) := by
    refine unpack_pack (by decide) ?_
    rcases hmag with h | h <;> rw [h] <;> decide
  rw [IsFinite, hunpack]
  rcases hmag with h | h <;> rw [h] <;> decide

lemma unpack_negf (x : U32) : unpack (negf x) = ⟨!(unpack x).neg, (unpack x).mag⟩ := by
  have hmag : (negf x).toNat % 2 ^ 31 = x.toNat % 2 ^ 31 := by
    have hmask : signMask.toNat % 2 ^ 31 = 0 := rfl
    rw [negf, BitVec.toNat_xor, Nat.xor_mod_two_pow, hmask, Nat.xor_zero]
  have hneg : (negf x).msb = !x.msb := by
    have hmask : signMask.msb = true := rfl
    rw [negf, BitVec.msb_xor, hmask, Bool.xor_true]
  exact congrArg₂ Datum.mk hneg hmag

lemma isFinite_negf (x : U32) : IsFinite (negf x) ↔ IsFinite x := by
  rw [IsFinite, unpack_negf, IsFinite]

lemma valueOf_negf (x : U32) : valueOf (negf x) = -valueOf x := by
  rw [valueOf, unpack_negf, valueOf, Format.value, Format.value, ← neg_div]
  cases h : (unpack x).neg <;> simp [Format.signed, h]

end Vemu
