import Vemu.Decoder.EncodeFloat
import Vemu.Refinement.Step
import Vemu.Softfloat.Handlers

/-!
# Sign injection and classification

The three sign injections put a sign in the place of the sign bit of the first source, and leave the
other bits alone.  The handlers do that, but they read the first source in the place of the second,
so that the sign they put is that of two equal operands.  `FCLASSS` finds the class and writes its
number, where a word with that one bit set is asked for.

So the injections are right exactly if both sources have the same sign, and the classification only
if nothing is written (**`signs_iff`**).
-/

namespace Vemu

open Fallible Riscv BinaryFloat

namespace VEmu.Softfloat

variable {host : Host} {s : VEmu} {x : U32}

/-! ## What should be computed -/

inductive SignOp
  | FSGNJS | FSGNJNS | FSGNJXS
  deriving DecidableEq, Repr

def SignOp.exact : SignOp → FExactOp
  | .FSGNJS => .FSGNJS
  | .FSGNJNS => .FSGNJNS
  | .FSGNJXS => .FSGNJXS

/-- The sign that is put, from those of the two sources. -/
def SignOp.sign : SignOp → Bool → Bool → Bool
  | .FSGNJS, _, b => b
  | .FSGNJNS, _, b => !b
  | .FSGNJXS, a, b => a ^^ b

/-- A pattern with another sign bit. -/
def withSign (x : U32) (neg : Bool) : U32 := (x.setWidth 31).cons neg

/-- The bit of the class of a pattern that is not a NaN, from its fields. -/
def classBit (x : U32) : ℕ :=
  let exponent := x.extractLsb' 23 8
  let fraction := x.extractLsb' 0 23
  if exponent = 255 then if x.msb then 0 else 7
  else if exponent ≠ 0 then if x.msb then 1 else 6
  else if fraction ≠ 0 then if x.msb then 2 else 5
  else if x.msb then 3 else 4

/-- **What is asked of an injection** from the patterns in its sources. -/
def InjectsRight (lib : SoftFloat) (host : Host) (s : VEmu) (op : SignOp) (rd rs1 rs2 : Reg) :
    Prop :=
  ∃ s', perform lib host (FInstr.exact op.exact rd rs1 rs2).encode s
      = .ok (.NormalExecutionReturn, s')
    ∧ s'.fregs rd
      = toDouble (withSign (s.single rs1) (op.sign (s.single rs1).msb (s.single rs2).msb))

/-- **What is asked of the classification** of a pattern, unless its result is dropped. -/
def ClassifiesRight (lib : SoftFloat) (host : Host) (s : VEmu) (rd rs1 : Reg) : Prop :=
  ∃ s', perform lib host (FInstr.move .FCLASSS rd rs1).encode s = .ok (.NormalExecutionReturn, s')
    ∧ (rd ≠ 0 → s'.loadReg rd = 1 <<< classBit (s.single rs1))

/-! ## Signs -/

lemma unpack_withSign (x : U32) (neg : Bool) : unpack (withSign x neg) = ⟨neg, (unpack x).mag⟩ := by
  have hnat : (withSign x neg).toNat = neg.toNat * 2 ^ 31 + x.toNat % 2 ^ 31 := by
    rw [withSign, BitVec.toNat_cons', BitVec.toNat_setWidth, Nat.shiftLeft_eq]
  have hmag : (withSign x neg).toNat % 2 ^ 31 = x.toNat % 2 ^ 31 := by
    rw [hnat]
    omega
  have hmsb : (withSign x neg).msb = neg := BitVec.msb_cons ..
  exact congrArg₂ Datum.mk hmsb hmag

lemma msb_withSign (x : U32) (neg : Bool) : (withSign x neg).msb = neg := BitVec.msb_cons ..

lemma isnan_withSign (h : isnan x = false) (neg : Bool) : isnan (withSign x neg) = false := by
  rw [isnan_eq_false_iff, unpack_withSign]
  exact isnan_eq_false_iff.mp h

/-- `copysignf` is the replacement of the sign bit. -/
lemma copysignf_eq (x y : U32) : copysignf x y = withSign x y.msb := by
  apply BitVec.eq_of_getLsbD_eq
  intro i hi
  rw [copysignf, fabsf, withSign, BitVec.getLsbD_or, BitVec.getLsbD_and, BitVec.getLsbD_and,
    BitVec.getLsbD_not, BitVec.getLsbD_cons, BitVec.getLsbD_setWidth, BitVec.msb_eq_getLsbD_last]
  have hmask : signMask.getLsbD i = decide (i = 31) := by
    revert i
    decide
  rw [hmask]
  by_cases h31 : i = 31
  · subst h31
    simp
  · have hlt : i < 31 := by omega
    simp [h31, hlt, hi]

lemma msb_negf (x : U32) : (negf x).msb = !x.msb := congrArg Datum.neg (unpack_negf x)

/-- **The handlers** put the sign of two equal operands. -/
lemma handler_exact (lib : SoftFloat) (host : Host) (op : SignOp) :
    handler lib host (exactName op.exact)
      = sameSource fun op1 _ => withSign op1 (op.sign op1.msb op1.msb) := by
  cases op with
  | FSGNJS =>
      change sameSource copysignf = _
      unfold sameSource
      simp only [copysignf_eq, SignOp.sign]
  | FSGNJNS =>
      change (sameSource fun op1 op2 => copysignf op1 (negf op2)) = _
      unfold sameSource
      simp only [copysignf_eq, msb_negf, SignOp.sign]
  | FSGNJXS =>
      have hone : (0x3F800000 : U32).msb = false := by decide
      change FSGNJXS = _
      unfold FSGNJXS sameSource
      simp only [bne_self_eq_false, Bool.false_eq_true, if_false, copysignf_eq, hone, SignOp.sign]

/-! ## Classes -/

/-- The exponent and the fraction are the two parts of the magnitude. -/
lemma mag_eq_fields (x : U32) :
    (unpack x).mag = (x.extractLsb' 23 8).toNat * 2 ^ 23 + (x.extractLsb' 0 23).toNat := by
  rw [BitVec.extractLsb'_toNat, BitVec.extractLsb'_toNat, Nat.shiftRight_eq_div_pow, Nat.shiftRight_zero]
  change x.toNat % 2 ^ 31 = _
  omega

/-- The class of a pattern that is not a NaN is a matter of its fields. -/
lemma fpclassify_eq (h : isnan x = false) :
    fpclassify x
      = if x.extractLsb' 23 8 = 255 then .FP_INFINITE
        else if x.extractLsb' 23 8 ≠ 0 then .FP_NORMAL
        else if x.extractLsb' 0 23 ≠ 0 then .FP_SUBNORMAL
        else .FP_ZERO := by
  have hmag := mag_eq_fields x
  have hfraction := (x.extractLsb' 0 23).isLt
  have hle : (unpack x).mag ≤ 255 * 2 ^ 23 := isnan_eq_false_iff.mp h
  have hinf : binary32.inf = 255 * 2 ^ 23 := rfl
  have hbits : binary32.fracBits = 23 := rfl
  have hexponent : (unpack x).mag = 255 * 2 ^ 23 ↔ x.extractLsb' 23 8 = 255 := by
    rw [BitVec.toNat_eq]
    change _ ↔ (x.extractLsb' 23 8).toNat = 255
    omega
  have hnone : (unpack x).mag < 2 ^ 23 ↔ x.extractLsb' 23 8 = 0 := by
    rw [BitVec.toNat_eq]
    change _ ↔ (x.extractLsb' 23 8).toNat = 0
    omega
  have hzero : (unpack x).mag = 0 ↔ x.extractLsb' 23 8 = 0 ∧ x.extractLsb' 0 23 = 0 := by
    rw [BitVec.toNat_eq, BitVec.toNat_eq]
    change _ ↔ (x.extractLsb' 23 8).toNat = 0 ∧ (x.extractLsb' 0 23).toNat = 0
    omega
  unfold fpclassify
  dsimp only
  rw [if_neg (not_lt.mpr (hinf ▸ hle)), hinf, hbits]
  simp only [hexponent, hnone, hzero]
  by_cases he : x.extractLsb' 23 8 = 255
  · rw [if_pos he, if_pos he]
  · rw [if_neg he, if_neg he]
    by_cases hn : x.extractLsb' 23 8 = 0
    · by_cases hf : x.extractLsb' 0 23 = 0
      · rw [if_pos ⟨hn, hf⟩, if_neg (not_not_intro hn), if_neg (not_not_intro hf)]
      · rw [if_neg (fun h => hf h.2), if_pos hn, if_neg (not_not_intro hn), if_pos hf]
    · rw [if_neg (fun h => hn h.1), if_neg hn, if_pos hn]

/-- **The handler finds the class**, and writes its number. -/
lemma classOf_eq (h : isnan x = false) : classOf x = BitVec.ofNat 64 (classBit x) := by
  have hsign : signbit x = x.msb := rfl
  unfold classOf classBit
  dsimp only
  rw [fpclassify_eq h, hsign]
  split_ifs <;> rfl

lemma classBit_lt (x : U32) : classBit x < 8 := by
  unfold classBit
  dsimp only
  split_ifs <;> decide

/-- A number is not the one bit of that number. -/
lemma ofNat_ne_oneHot {k : ℕ} (h : k < 8) : BitVec.ofNat 64 k ≠ 1 <<< k := by
  revert k
  decide

/-! ## When it is right -/

/-- **The injections** are right exactly if the sources have the same sign. -/
lemma injectsRight_iff (lib : SoftFloat) (hs : s.Intact host) (op : SignOp) (rd rs1 rs2 : Reg)
    (h : isnan (s.single rs1) = false) :
    InjectsRight lib host s op rd rs1 rs2 ↔ (s.single rs1).msb = (s.single rs2).msb := by
  obtain ⟨ins, hdec, hname, hrd, hrs1, -⟩ := decode_exact rd rs1 rs2 op.exact
  have hperform := perform_eq lib hs hdec (by rw [hname]; cases op <;> decide)
  rw [hname, handler_exact] at hperform
  set s' := (s.decoded (FInstr.exact op.exact rd rs1 rs2).encode ins).storeSingle ins.f.rd
    (withSign (s.single ins.f.rs1) (op.sign (s.single ins.f.rs1).msb (s.single ins.f.rs1).msb))
  have hresult : s'.fregs rd
      = toDouble (withSign (s.single rs1) (op.sign (s.single rs1).msb (s.single rs1).msb)) := by
    change Function.update s.fregs ins.f.rd (toDouble (withSign (s.single ins.f.rs1)
      (op.sign (s.single ins.f.rs1).msb (s.single ins.f.rs1).msb))) rd = _
    rw [hrd, hrs1, Function.update_self]
  have hright : InjectsRight lib host s op rd rs1 rs2
      ↔ op.sign (s.single rs1).msb (s.single rs1).msb
        = op.sign (s.single rs1).msb (s.single rs2).msb := by
    constructor
    · rintro ⟨t, ht, hvalue⟩
      obtain ⟨-, rfl⟩ := Prod.mk.inj (Except.ok.inj (hperform.symm.trans ht))
      have hsame := toDouble_inj (isnan_withSign h _) (isnan_withSign h _)
        (hresult.symm.trans hvalue)
      simpa only [msb_withSign] using congrArg BitVec.msb hsame
    · intro hsign
      exact ⟨s', hperform, by rw [hresult, hsign]⟩
  rw [hright]
  cases op <;> cases (s.single rs1).msb <;> cases (s.single rs2).msb <;> decide

/-- **The classification** is right only if its result is dropped. -/
lemma classifiesRight_iff (lib : SoftFloat) (hs : s.Intact host) (rd rs1 : Reg)
    (h : isnan (s.single rs1) = false) : ClassifiesRight lib host s rd rs1 ↔ rd = 0 := by
  obtain ⟨ins, hdec, hname, hrd, hrs1⟩ := decode_move rd rs1 .FCLASSS
  have hperform := perform_eq lib hs hdec (by rw [hname]; decide)
  rw [hname] at hperform
  set s' := (s.decoded (FInstr.move .FCLASSS rd rs1).encode ins).storeReg ins.f.rd
    (classOf (s.single ins.f.rs1))
  constructor
  · rintro ⟨t, ht, hvalue⟩
    obtain ⟨-, rfl⟩ := Prod.mk.inj (Except.ok.inj (hperform.symm.trans ht))
    by_contra hne
    have hread : s'.loadReg rd = BitVec.ofNat 64 (classBit (s.single rs1)) := by
      rw [← classOf_eq h, ← hrs1, ← hrd]
      exact loadReg_storeReg_self _ (hrd ▸ hne) _
    exact ofNat_ne_oneHot (classBit_lt _) (hread.symm.trans (hvalue hne))
  · exact fun hzero => ⟨s', hperform, fun hne => absurd hzero hne⟩

/-- **Sign injections are right** exactly if both sources have the same sign, and the classification
only if nothing is written. -/
theorem signs_iff (lib : SoftFloat) (host : Host) (s : VEmu) (hs : s.Intact host) (op : SignOp)
    (rd rs1 rs2 : Reg) (h : isnan (s.single rs1) = false) :
    (InjectsRight lib host s op rd rs1 rs2 ↔ (s.single rs1).msb = (s.single rs2).msb)
      ∧ (ClassifiesRight lib host s rd rs1 ↔ rd = 0) :=
  ⟨injectsRight_iff lib hs op rd rs1 rs2 h, classifiesRight_iff lib hs rd rs1 h⟩

/-! ### One and minus two -/

/-- An emulator with 1 in every float register, but -2 in the second. -/
def oneAndMinusTwo : VEmu :=
  { onePage 0 0 with fregs := fun r => toDouble (if r = 2 then 0xC0000000 else 0x3F800000) }

lemma intact_oneAndMinusTwo : oneAndMinusTwo.Intact (.bare .fuzz) :=
  (intact_onePage 0 0).withFregs _

/-- The sign of 1 for 1, and a class for the zero register. -/
theorem signs_equal :
    InjectsRight .idle (.bare .fuzz) oneAndMinusTwo .FSGNJNS 5 1 3
      ∧ ClassifiesRight .idle (.bare .fuzz) oneAndMinusTwo 0 1 := by
  have h := signs_iff .idle (.bare .fuzz) oneAndMinusTwo intact_oneAndMinusTwo .FSGNJNS
  exact ⟨(h 5 1 3 (by decide +kernel)).1.mpr (by decide +kernel),
    (h 0 1 3 (by decide +kernel)).2.mpr rfl⟩

/-- The sign of -2 for 1, and the class of 1, which is written as 6. -/
theorem not_signs_differing :
    ¬ InjectsRight .idle (.bare .fuzz) oneAndMinusTwo .FSGNJS 5 1 2
      ∧ ¬ InjectsRight .idle (.bare .fuzz) oneAndMinusTwo .FSGNJNS 5 1 2
      ∧ ¬ InjectsRight .idle (.bare .fuzz) oneAndMinusTwo .FSGNJXS 5 1 2
      ∧ ¬ ClassifiesRight .idle (.bare .fuzz) oneAndMinusTwo 5 1 := by
  have hone : isnan (oneAndMinusTwo.single 1) = false := by decide +kernel
  have hdiffer : ¬ (oneAndMinusTwo.single 1).msb = (oneAndMinusTwo.single 2).msb := by
    decide +kernel
  have hinjects (op : SignOp) : ¬ InjectsRight .idle (.bare .fuzz) oneAndMinusTwo op 5 1 2 := by
    rw [injectsRight_iff .idle intact_oneAndMinusTwo op 5 1 2 hone]
    exact hdiffer
  refine ⟨hinjects _, hinjects _, hinjects _, ?_⟩
  rw [classifiesRight_iff .idle intact_oneAndMinusTwo 5 1 hone]
  decide

end VEmu.Softfloat

end Vemu
