import Vemu.Decoder.EncodeFloat
import Vemu.Refinement.Step
import Vemu.Softfloat.Handlers

/-!
# The signs of the fused operations

Each of the four opcodes stands for a product and a third operand, with a sign for the one and a
sign for the other.  Where `std::fma` need not round, the value that arrives in `rd` can be compared
with that.  Three things stand between the two.

The decoder loses the last bit of the third source, so that an odd register is read as the even one
below it.  The handler of `FNMSUBS` negates the addend, which is what `FNMADDS` should do and does
not.  And the word of `FNMADDS` is not decoded at all.  So a word is right exactly if the register
that is read happens to hold what makes up for this (**`fusesRight_iff`**).
-/

namespace Vemu

open Fallible Riscv BinaryFloat

namespace VEmu.Softfloat

variable {host : Host} {s : VEmu} {op : FusedOp} {rs1 rs2 rs3 : Reg}

/-! ## What should be computed -/

/-- The value that the instruction set gives to an opcode. -/
def fusedValue : FusedOp → ℚ → ℚ → ℚ → ℚ
  | .FMADDS, a, b, c => a * b + c
  | .FMSUBS, a, b, c => a * b - c
  | .FNMSUBS, a, b, c => -(a * b) + c
  | .FNMADDS, a, b, c => -(a * b) - c

/-- **What is asked of a fused word**: it goes through, and leaves in `rd` the value of its opcode at
the registers it names. -/
def FusesRight (lib : SoftFloat) (host : Host) (s : VEmu) (op : FusedOp) (rm : BitVec 3)
    (rd rs1 rs2 rs3 : Reg) : Prop :=
  ∃ s', perform lib host (FInstr.fused op rm rd rs1 rs2 rs3).encode s
      = .ok (.NormalExecutionReturn, s')
    ∧ IsFinite (s'.single rd)
    ∧ valueOf (s'.single rd)
      = fusedValue op (valueOf (s.single rs1)) (valueOf (s.single rs2)) (valueOf (s.single rs3))

/-! ## What the handlers compute -/

/-- What the handlers do to the first factor. -/
def factorSign : FusedOp → U32 → U32
  | .FMADDS | .FMSUBS => id
  | .FNMSUBS | .FNMADDS => negf

/-- What they do to the addend. -/
def addendSign : FusedOp → U32 → U32
  | .FMADDS | .FNMADDS => id
  | .FMSUBS | .FNMSUBS => negf

/-- The register that is read in the place of the third source. -/
def addendReg (rs3 : Reg) : Reg := rs3 &&& 0b11110

lemma handler_fused (lib : SoftFloat) (host : Host) (op : FusedOp) :
    handler lib host (fusedName op) = fused (factorSign op) (addendSign op) := by
  cases op <;> rfl

lemma isFinite_factorSign (op : FusedOp) (a : U32) : IsFinite (factorSign op a) ↔ IsFinite a := by
  cases op with
  | FMADDS | FMSUBS => exact Iff.rfl
  | FNMSUBS | FNMADDS => exact isFinite_negf a

lemma isFinite_addendSign (op : FusedOp) (c : U32) : IsFinite (addendSign op c) ↔ IsFinite c := by
  cases op with
  | FMADDS | FNMADDS => exact Iff.rfl
  | FMSUBS | FNMSUBS => exact isFinite_negf c

/-- **A word that is decoded** leaves what `std::fma` returns. -/
lemma perform_fused (lib : SoftFloat) (hs : s.Intact host) (hop : op ≠ .FNMADDS) (rm : BitVec 3)
    (rd rs1 rs2 rs3 : Reg) :
    ∃ s', perform lib host (FInstr.fused op rm rd rs1 rs2 rs3).encode s
        = .ok (.NormalExecutionReturn, s')
      ∧ s'.single rd = toFloat (toDouble (fmaf (factorSign op (s.single rs1)) (s.single rs2)
          (addendSign op (s.single (addendReg rs3))))) := by
  obtain ⟨ins, hdec, hname, hrd, hrs1, hrs2, hrs3⟩ := decode_fused rd rs1 rs2 rs3 hop rm
  have hperform := perform_eq lib hs hdec (by rw [hname]; cases op <;> decide)
  rw [hname, handler_fused] at hperform
  refine ⟨_, hperform, ?_⟩
  change toFloat (Function.update s.fregs ins.f.rd (toDouble (fmaf
    (factorSign op (s.single ins.f.rs1)) (s.single ins.f.rs2)
    (addendSign op (s.single ins.f.rs3)))) rd) = _
  rw [hrd, hrs1, hrs2, hrs3, Function.update_self]
  rfl

/-! ## When it is right -/

/-- The registers of the word hold numbers, and `std::fma` need not round. -/
structure Unrounded (s : VEmu) (op : FusedOp) (rs1 rs2 rs3 : Reg) : Prop where
  first : IsFinite (s.single rs1)
  second : IsFinite (s.single rs2)
  third : IsFinite (s.single rs3)
  represents : IsFinite (s.single (addendReg rs3)) →
    binary32.Represents (valueOf (factorSign op (s.single rs1)) * valueOf (s.single rs2)
      + valueOf (addendSign op (s.single (addendReg rs3))))

/-- Whether an addend does in the place of another: an equal one, and for the operation with the
swapped sign its negation. -/
def StandsIn : FusedOp → ℚ → ℚ → Prop
  | .FMADDS, c', c | .FMSUBS, c', c => c' = c
  | .FNMSUBS, c', c => c' = -c
  | .FNMADDS, _, _ => False

/-- The value that is computed is the one that should be, if the addend does. -/
lemma value_eq_iff (hop : op ≠ .FNMADDS) (a b c c' : U32) :
    valueOf (factorSign op a) * valueOf b + valueOf (addendSign op c')
        = fusedValue op (valueOf a) (valueOf b) (valueOf c)
      ↔ StandsIn op (valueOf c') (valueOf c) := by
  cases op with
  | FMADDS => exact add_right_inj _
  | FMSUBS =>
      change valueOf a * valueOf b + valueOf (negf c') = valueOf a * valueOf b - valueOf c ↔ _
      rw [valueOf_negf, ← sub_eq_add_neg]
      exact sub_right_inj
  | FNMSUBS =>
      change valueOf (negf a) * valueOf b + valueOf (negf c') = -(valueOf a * valueOf b) + valueOf c
        ↔ _
      rw [valueOf_negf, valueOf_negf, neg_mul, add_right_inj]
      exact neg_eq_iff_eq_neg
  | FNMADDS => exact absurd rfl hop

lemma not_fusesRight_fnmadds (lib : SoftFloat) (hs : s.Intact host) (rm : BitVec 3)
    (rd rs1 rs2 rs3 : Reg) : ¬ FusesRight lib host s .FNMADDS rm rd rs1 rs2 rs3 := by
  rintro ⟨s', hs', -⟩
  have hperform := perform_error lib hs (decodeOf_fnmadds rd rs1 rs2 rs3 rm)
  exact absurd (hperform.symm.trans hs') (by simp)

/-- The three that are decoded. -/
lemma fusesRight_iff_of_ne (lib : SoftFloat) (hs : s.Intact host) (hop : op ≠ .FNMADDS)
    (rm : BitVec 3) (rd : Reg) (h : Unrounded s op rs1 rs2 rs3) :
    FusesRight lib host s op rm rd rs1 rs2 rs3
      ↔ IsFinite (s.single (addendReg rs3))
        ∧ StandsIn op (valueOf (s.single (addendReg rs3))) (valueOf (s.single rs3)) := by
  obtain ⟨s', hperform, hresult⟩ := perform_fused lib hs hop rm rd rs1 rs2 rs3
  have hright : FusesRight lib host s op rm rd rs1 rs2 rs3
      ↔ IsFinite (s'.single rd) ∧ valueOf (s'.single rd) = fusedValue op (valueOf (s.single rs1))
        (valueOf (s.single rs2)) (valueOf (s.single rs3)) := by
    constructor
    · rintro ⟨t, ht, hfin, hvalue⟩
      obtain ⟨-, rfl⟩ := Prod.mk.inj (Except.ok.inj (hperform.symm.trans ht))
      exact ⟨hfin, hvalue⟩
    · exact fun hres => ⟨s', hperform, hres⟩
  rw [hright, hresult]
  by_cases hfin : IsFinite (s.single (addendReg rs3))
  · obtain ⟨hres, hvalue⟩ := valueOf_fmaf ((isFinite_factorSign op _).mpr h.first) h.second
      ((isFinite_addendSign op _).mpr hfin) (h.represents hfin)
    rw [toFloat_toDouble hres.isnan, hvalue, value_eq_iff hop]
    exact ⟨fun hval => ⟨hfin, hval.2⟩, fun hfit => ⟨hres, hfit.2⟩⟩
  · have hinf : ¬ IsFinite (addendSign op (s.single (addendReg rs3))) :=
      fun hf => hfin ((isFinite_addendSign op _).mp hf)
    refine iff_of_false (fun hval => ?_) fun hfit => hfin hfit.1
    exact not_isFinite_toFloat_toDouble (not_isFinite_fmaf hinf) hval.1

/-- **A fused word computes what it should** exactly if the register that is read as the third
source makes up for the register that is not, and for the sign that is wrong; the word of
`FNMADDS` never does. -/
theorem fusesRight_iff (lib : SoftFloat) (host : Host) (s : VEmu) (hs : s.Intact host)
    (op : FusedOp) (rm : BitVec 3) (rd rs1 rs2 rs3 : Reg) (h : Unrounded s op rs1 rs2 rs3) :
    FusesRight lib host s op rm rd rs1 rs2 rs3
      ↔ IsFinite (s.single (addendReg rs3))
        ∧ StandsIn op (valueOf (s.single (addendReg rs3))) (valueOf (s.single rs3)) := by
  by_cases hop : op = .FNMADDS
  · subst hop
    exact iff_of_false (not_fusesRight_fnmadds lib hs rm rd rs1 rs2 rs3) fun hfit => hfit.2
  · exact fusesRight_iff_of_ne lib hs hop rm rd h

/-! ### Five numbers -/

/-- An emulator with small numbers in its first registers. -/
def counting : VEmu :=
  { onePage 0 0 with
    fregs := fun r => toDouble <|
      if r = 1 then 0x40000000 else if r = 2 then 0x40400000 else if r = 3 then 0x40A00000
      else if r = 4 then 0x40E00000 else 0 }

lemma intact_counting : counting.Intact (.bare .fuzz) :=
  (intact_onePage 0 0).withFregs _

lemma values_counting :
    valueOf (counting.single 1) = 2 ∧ valueOf (counting.single 2) = 3
      ∧ valueOf (counting.single 3) = 5 ∧ valueOf (counting.single 4) = 7 := by
  decide +kernel

/-- 2 * 3 + 7, with an even third source. -/
theorem fusesRight_even : FusesRight .idle (.bare .fuzz) counting .FMADDS 0 5 1 2 4 := by
  have hexact : Unrounded counting .FMADDS 1 2 4 :=
    ⟨by decide +kernel, by decide +kernel, by decide +kernel, fun _ =>
      ⟨⟨false, 0x41500000⟩, by decide +kernel, by decide +kernel⟩⟩
  exact (fusesRight_iff .idle (.bare .fuzz) counting intact_counting .FMADDS 0 5 1 2 4 hexact).mpr
    ⟨by decide +kernel, rfl⟩

/-- 2 * 3 + 5 comes out as 2 * 3 + 3, -(2 * 3) + 7 as -(2 * 3) - 7, and -(2 * 3) - 7 as nothing. -/
theorem not_fusesRight_counting :
    ¬ FusesRight .idle (.bare .fuzz) counting .FMADDS 0 5 1 2 3
      ∧ ¬ FusesRight .idle (.bare .fuzz) counting .FNMSUBS 0 5 1 2 4
      ∧ ¬ FusesRight .idle (.bare .fuzz) counting .FNMADDS 0 5 1 2 4 := by
  obtain ⟨-, h2, h3, h4⟩ := values_counting
  have hodd : Unrounded counting .FMADDS 1 2 3 :=
    ⟨by decide +kernel, by decide +kernel, by decide +kernel, fun _ =>
      ⟨⟨false, 0x41100000⟩, by decide +kernel, by decide +kernel⟩⟩
  have hswapped : Unrounded counting .FNMSUBS 1 2 4 :=
    ⟨by decide +kernel, by decide +kernel, by decide +kernel, fun _ =>
      ⟨⟨true, 0x41500000⟩, by decide +kernel, by decide +kernel⟩⟩
  refine ⟨?_, ?_, not_fusesRight_fnmadds .idle intact_counting 0 5 1 2 4⟩
  · rw [fusesRight_iff_of_ne .idle intact_counting (by decide) 0 5 hodd]
    rintro ⟨-, hvalue⟩
    change valueOf (counting.single 2) = valueOf (counting.single 3) at hvalue
    rw [h2, h3] at hvalue
    norm_num at hvalue
  · rw [fusesRight_iff_of_ne .idle intact_counting (by decide) 0 5 hswapped]
    rintro ⟨-, hvalue⟩
    change valueOf (counting.single 4) = -valueOf (counting.single 4) at hvalue
    rw [h4] at hvalue
    norm_num at hvalue

end VEmu.Softfloat

end Vemu
