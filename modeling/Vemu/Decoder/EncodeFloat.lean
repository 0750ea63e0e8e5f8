import Vemu.Decoder.Encode
import Vemu.Riscv.FloatEncoding

/-!
# The decoder against the F encoder

`ReadsFloat ins i` says that the decoder's instruction `ins` is the single-precision instruction
`i`.  Two of the instructions have no printed name, so that their decoding throws, and the mask
of `rs3` misses the last bit of the field, so that the four fused operations lose it.  Everything
else comes back: **`decode_encode_float_iff`**.
-/

namespace Vemu

open Fallible OrderedMap BitFields Riscv

/-! ## Mnemonics -/

def fusedName : FusedOp → IName
  | .FMADDS => .FMADDS | .FMSUBS => .FMSUBS | .FNMSUBS => .FNMSUBS | .FNMADDS => .FNMADDS

def arithName : FArithOp → IName
  | .FADDS => .FADDS | .FSUBS => .FSUBS | .FMULS => .FMULS | .FDIVS => .FDIVS

def exactName : FExactOp → IName
  | .FSGNJS => .FSGNJS | .FSGNJNS => .FSGNJNS | .FSGNJXS => .FSGNJXS
  | .FMINS => .FMINS | .FMAXS => .FMAXS | .FEQS => .FEQS | .FLTS => .FLTS | .FLES => .FLES

def convertName : FConvertOp → IName
  | .FSQRTS => .FSQRTS | .FCVTWS => .FCVTWS | .FCVTWUS => .FCVTWUS | .FCVTLS => .FCVTLS
  | .FCVTLUS => .FCVTLUS | .FCVTSW => .FCVTSW | .FCVTSWU => .FCVTSWU | .FCVTSL => .FCVTSL
  | .FCVTSLU => .FCVTSLU

def moveName : FMoveOp → IName
  | .FMVXW => .FMVXW | .FMVWX => .FMVWX | .FCLASSS => .FCLASSS

/-- **What the decoder has to report of a single-precision instruction**: the mnemonic and every
operand register, and the offset of a load or a store. -/
def ReadsFloat (ins : Instruction) : FInstr → Prop
  | .flw rd rs1 imm =>
      ins.name = .FLW ∧ ins.f.rd = rd ∧ ins.f.rs1 = rs1 ∧ ins.f.imm = imm.signExtend 32
  | .fsw rs1 rs2 imm =>
      ins.name = .FSW ∧ ins.f.rs1 = rs1 ∧ ins.f.rs2 = rs2 ∧ ins.f.imm = imm.signExtend 32
  | .fused op _ rd rs1 rs2 rs3 =>
      ins.name = fusedName op ∧ ins.f.rd = rd ∧ ins.f.rs1 = rs1 ∧ ins.f.rs2 = rs2
        ∧ ins.f.rs3 = rs3
  | .arith op _ rd rs1 rs2 =>
      ins.name = arithName op ∧ ins.f.rd = rd ∧ ins.f.rs1 = rs1 ∧ ins.f.rs2 = rs2
  | .exact op rd rs1 rs2 =>
      ins.name = exactName op ∧ ins.f.rd = rd ∧ ins.f.rs1 = rs1 ∧ ins.f.rs2 = rs2
  | .convert op _ rd rs1 => ins.name = convertName op ∧ ins.f.rd = rd ∧ ins.f.rs1 = rs1
  | .move op rd rs1 => ins.name = moveName op ∧ ins.f.rd = rd ∧ ins.f.rs1 = rs1

/-- The instructions that the decoder's tables and masks can represent: those with a printed
name and, among the fused operations, with an even third source. -/
def Representable : FInstr → Prop
  | .fused op _ _ _ _ rs3 => op ≠ .FNMADDS ∧ rs3.getLsbD 0 = false
  | .convert op _ _ _ => op ≠ .FCVTSL
  | _ => True

/-! ## One format after the other -/

section Formats

variable (rd rs1 rs2 : Reg)

/-- A single-precision word goes to the search that its `funct7` chooses. -/
lemma decodeOf_fp (funct7 : BitVec 7) (funct3 : BitVec 3) :
    decodeOf (word funct7 rs2 rs1 funct3 rd opFp)
      = (if ignoreF3 (word funct7 0 0 0 0 0) then searchFpWithoutF3 else searchFpWithF3)
          (fieldsWith (word funct7 rs2 rs1 funct3 rd opFp) 0) := by
  have hop : extractOpcode (word funct7 rs2 rs1 funct3 rd opFp) = 0b1010011 :=
    extractOpcode_word ..
  have hf3 : ignoreF3 (word funct7 rs2 rs1 funct3 rd opFp) = ignoreF3 (word funct7 0 0 0 0 0) := by
    simp only [ignoreF3, extractFunct7_word]
  have hfp : isFpInstr (word funct7 rs2 rs1 funct3 rd opFp) = true := by
    rw [isFpInstr, hop]
    rfl
  rw [@decodeOf_eq_search _ .R (by rw [hop]; decide) (Or.inl (by rw [hop]; decide)), searchOf,
    if_pos hfp, hf3]
  rfl

/-- With a `funct3`, the one row that fits the codes decides. -/
lemma decode_fp_with_f3 {n : IName} {funct7 : BitVec 7} {funct3 : BitVec 3}
    (hf3 : ignoreF3 (word funct7 0 0 0 0 0) = false) (hn : unprinted n = false)
    (hrow : (rRows.find? (fitsFp 0b1010011 (funct3.setWidth 8)
      (funct7.setWidth 8))).map Prod.fst = some n) :
    ∃ ins, decodeOf (word funct7 rs2 rs1 funct3 rd opFp) = .ok ins
      ∧ ins.name = n ∧ ins.f.rd = rd ∧ ins.f.rs1 = rs1 ∧ ins.f.rs2 = rs2 := by
  set w := word funct7 rs2 rs1 funct3 rd opFp with hw
  have hdec : decodeOf w = found .R (fieldsWith w 0) (some n) := by
    rw [hw, decodeOf_fp, ← hw, hf3, if_neg (by simp), searchFpWithF3_eq]
    have hop : extractOpcode w = 0b1010011 := extractOpcode_word ..
    have hf3 : extractFunct3 w = funct3.setWidth 8 := extractFunct3_word ..
    have hf7 : extractFunct7 w = funct7.setWidth 8 := extractFunct7_word ..
    simp only [fieldsWith, hop, hf3, hf7, hrow]
  obtain ⟨s, hs⟩ := found_some hn .R (fieldsWith w 0)
  exact ⟨_, hdec.trans hs, rfl, extractRd_word .., extractRs1_word .., extractRs2_word ..⟩

/-- Without a `funct3`, the mnemonic is a matter of `funct7` and of the second source. -/
lemma decodeOf_fp_without_f3 {n : IName} {funct7 : BitVec 7} (funct3 : BitVec 3)
    (hf3 : ignoreF3 (word funct7 0 0 0 0 0) = true)
    (hname : fpNameWithoutF3 0b1010011 (funct7.setWidth 8) rs2 = .ok n) :
    decodeOf (word funct7 rs2 rs1 funct3 rd opFp)
      = found .R (fieldsWith (word funct7 rs2 rs1 funct3 rd opFp) 0) (some n) := by
  set w := word funct7 rs2 rs1 funct3 rd opFp with hw
  have hop : extractOpcode w = 0b1010011 := extractOpcode_word ..
  have hf7 : extractFunct7 w = funct7.setWidth 8 := extractFunct7_word ..
  have hrs2 : extractRs2 w = rs2 := extractRs2_word ..
  rw [hw, decodeOf_fp, ← hw, hf3, if_pos rfl, searchFpWithoutF3]
  simp only [fieldsWith, hop, hf7, hrs2, hname, ok_bind]
  rfl

lemma decode_fp_without_f3 {n : IName} {funct7 : BitVec 7} (funct3 : BitVec 3)
    (hf3 : ignoreF3 (word funct7 0 0 0 0 0) = true)
    (hname : fpNameWithoutF3 0b1010011 (funct7.setWidth 8) rs2 = .ok n)
    (hn : unprinted n = false) :
    ∃ ins, decodeOf (word funct7 rs2 rs1 funct3 rd opFp) = .ok ins
      ∧ ins.name = n ∧ ins.f.rd = rd ∧ ins.f.rs1 = rs1 ∧ ins.f.rs2 = rs2 := by
  obtain ⟨s, hs⟩ := found_some hn .R (fieldsWith (word funct7 rs2 rs1 funct3 rd opFp) 0)
  exact ⟨_, (decodeOf_fp_without_f3 rd rs1 rs2 funct3 hf3 hname).trans hs, rfl,
    extractRd_word .., extractRs1_word .., extractRs2_word ..⟩

lemma decode_exact (op : FExactOp) :
    ∃ ins, decodeOf (FInstr.exact op rd rs1 rs2).encode = .ok ins
      ∧ ReadsFloat ins (.exact op rd rs1 rs2) := by
  refine decode_fp_with_f3 rd rs1 rs2 ?_ ?_ ?_
  · cases op <;> decide
  · cases op <;> rfl
  · cases op <;> decide +kernel

/-- A word with the codes of a move, whatever its second source. -/
lemma decode_wordMove (op : FMoveOp) :
    ∃ ins, decodeOf (word op.code.1 rs2 rs1 op.code.2 rd opFp) = .ok ins
      ∧ ins.name = moveName op ∧ ins.f.rd = rd ∧ ins.f.rs1 = rs1 := by
  have hrow : (rRows.find? (fitsFp 0b1010011 (op.code.2.setWidth 8)
      (op.code.1.setWidth 8))).map Prod.fst = some (moveName op) := by
    cases op <;> decide +kernel
  obtain ⟨ins, hins, hname, hrd, hrs1, -⟩ := @decode_fp_with_f3 rd rs1 rs2 (moveName op)
    op.code.1 op.code.2 (by cases op <;> decide) (by cases op <;> rfl) hrow
  exact ⟨ins, hins, hname, hrd, hrs1⟩

lemma decode_move (op : FMoveOp) :
    ∃ ins, decodeOf (FInstr.move op rd rs1).encode = .ok ins
      ∧ ReadsFloat ins (.move op rd rs1) :=
  decode_wordMove rd rs1 0 op

lemma decode_arith (op : FArithOp) (rm : BitVec 3) :
    ∃ ins, decodeOf (FInstr.arith op rm rd rs1 rs2).encode = .ok ins
      ∧ ReadsFloat ins (.arith op rm rd rs1 rs2) := by
  have hname : fpNameWithoutF3 0b1010011 (op.code.setWidth 8) rs2 = .ok (arithName op) := by
    cases op <;> simp [FArithOp.code, fpNameWithoutF3, firstMatch_fpRows, arithName, fpRows]
  refine decode_fp_without_f3 rd rs1 rs2 rm ?_ hname ?_
  · cases op <;> decide
  · cases op <;> rfl

/-- The conversion without a printed name is the one that is not decoded. -/
lemma decode_convert_iff (op : FConvertOp) (rm : BitVec 3) :
    (∃ ins, decodeOf (FInstr.convert op rm rd rs1).encode = .ok ins
      ∧ ReadsFloat ins (.convert op rm rd rs1)) ↔ op ≠ .FCVTSL := by
  have hf3 : ignoreF3 (word op.code.1 0 0 0 0 0) = true := by
    cases op <;> decide
  have hname : fpNameWithoutF3 0b1010011 (op.code.1.setWidth 8) op.code.2
      = .ok (convertName op) := by
    cases op <;> decide +kernel
  constructor
  · rintro ⟨ins, hins, -⟩ rfl
    have hthrow := decodeOf_fp_without_f3 rd rs1 0b00010 rm hf3 hname
    rw [found_unprinted rfl] at hthrow
    exact absurd (hins.symm.trans hthrow) (by simp)
  · intro hop
    have hn : unprinted (convertName op) = false := by
      revert hop
      cases op <;> decide
    obtain ⟨ins, hins, hnm, hrd, hrs1, -⟩ := decode_fp_without_f3 rd rs1 op.code.2 rm hf3 hname hn
    exact ⟨ins, hins, hnm, hrd, hrs1⟩

/-! ## The fused operations -/

variable (rs3 : Reg)

/-- A word of the R4 format: the opcode decides, if the format field is that of single
precision. -/
lemma decodeOf_fused (op : FusedOp) (rm : BitVec 3) :
    decodeOf (FInstr.fused op rm rd rs1 rs2 rs3).encode
      = found .R4 (fieldsWith (FInstr.fused op rm rd rs1 rs2 rs3).encode 0)
          (some (fusedName op)) := by
  set w := word (rs3 ++ singleFmt) rs2 rs1 rm rd op.code with hw
  have hop : extractOpcode w = op.code.setWidth 8 := extractOpcode_word ..
  have hf2 : extractFunct2 w = 0 := by
    rw [extractFunct2_word, lastColumn]
    rfl
  have hrow : (r4Rows.find? fun r => op.code.setWidth 8 == r.2.1 && r.2.2 == 0).map Prod.fst
      = some (fusedName op) := by
    cases op <;> decide
  change decodeOf w = found .R4 (fieldsWith w 0) _
  rw [@decodeOf_eq_search _ .R4 (by rw [hop]; cases op <;> decide)
    (Or.inl (by rw [hop]; cases op <;> decide)), searchOf, searchR4_eq]
  simp only [fieldsWith, hop, hf2, hrow, immediateOf]

/-- What the mask of `rs3` keeps of a register number. -/
lemma maskRs3_eq_self_iff : rs3 &&& 0b11110 = rs3 ↔ rs3.getLsbD 0 = false := by
  revert rs3
  decide

/-- A fused operation with a printed name, and a third source without its last bit. -/
lemma decode_fused {op : FusedOp} (hop : op ≠ .FNMADDS) (rm : BitVec 3) :
    ∃ ins, decodeOf (FInstr.fused op rm rd rs1 rs2 rs3).encode = .ok ins
      ∧ ins.name = fusedName op ∧ ins.f.rd = rd ∧ ins.f.rs1 = rs1 ∧ ins.f.rs2 = rs2
      ∧ ins.f.rs3 = rs3 &&& 0b11110 := by
  have hrs3 : extractRs3 (FInstr.fused op rm rd rs1 rs2 rs3).encode = rs3 &&& 0b11110 := by
    have hcol : (rs3 ++ singleFmt).extractLsb' 2 5 = rs3 :=
      (column rs3 singleFmt 0 5).trans BitVec.extractLsb'_eq_self
    rw [FInstr.encode, extractRs3_word, hcol]
  have hn : unprinted (fusedName op) = false := by
    revert hop
    cases op <;> decide
  obtain ⟨s, hs⟩ := found_some hn .R4 (fieldsWith (FInstr.fused op rm rd rs1 rs2 rs3).encode 0)
  rw [← decodeOf_fused rd rs1 rs2 rs3 op rm] at hs
  exact ⟨_, hs, rfl, extractRd_word .., extractRs1_word .., extractRs2_word .., hrs3⟩

/-- The one without a printed name is not decoded. -/
lemma decodeOf_fnmadds (rm : BitVec 3) :
    decodeOf (FInstr.fused .FNMADDS rm rd rs1 rs2 rs3).encode = .error .outOfRange := by
  rw [decodeOf_fused]
  exact found_unprinted rfl ..

/-- A fused operation comes back if it has a printed name and its third source survives the
mask. -/
lemma decode_fused_iff (op : FusedOp) (rm : BitVec 3) :
    (∃ ins, decodeOf (FInstr.fused op rm rd rs1 rs2 rs3).encode = .ok ins
      ∧ ReadsFloat ins (.fused op rm rd rs1 rs2 rs3))
      ↔ op ≠ .FNMADDS ∧ rs3.getLsbD 0 = false := by
  by_cases hop : op = .FNMADDS
  · subst hop
    rw [decodeOf_fnmadds]
    simp
  · obtain ⟨ins, hdec, hname, hrd, hrs1, hrs2, hrs3⟩ := decode_fused rd rs1 rs2 rs3 hop rm
    rw [hdec, ← maskRs3_eq_self_iff, ← hrs3]
    constructor
    · rintro ⟨ins', hins, -, -, -, -, hread⟩
      obtain rfl := Except.ok.inj hins
      exact ⟨hop, hread⟩
    · rintro ⟨-, hread⟩
      exact ⟨ins, rfl, hname, hrd, hrs1, hrs2, hread⟩

/-! ## Loads and stores -/

lemma decode_flw (imm : BitVec 12) :
    ∃ ins, decodeOf (FInstr.flw rd rs1 imm).encode = .ok ins
      ∧ ReadsFloat ins (.flw rd rs1 imm) :=
  @decode_wordI rd rs1 .FLW imm 0b010 0b0000111 (by decide) (Or.inl (by decide)) rfl rfl

lemma decode_fsw (imm : BitVec 12) :
    ∃ ins, decodeOf (FInstr.fsw rs1 rs2 imm).encode = .ok ins
      ∧ ReadsFloat ins (.fsw rs1 rs2 imm) :=
  @decode_wordS rs1 rs2 .FSW imm 0b010 0b0100111 (by decide) (by decide) rfl (by decide)

end Formats

/-- **The decoder inverts the F encoder on the representable instructions and on no other**, whatever
it was asked before. -/
theorem decode_encode_float_iff (history : List U32) (i : FInstr) :
    (∃ ins, ((InstructionDecoder.init.after history).decode i.encode).1 = .ok ins
      ∧ ReadsFloat ins i) ↔ Representable i := by
  rw [InstructionDecoder.decode_after]
  cases i with
  | flw rd rs1 imm => exact iff_true_intro (decode_flw rd rs1 imm)
  | fsw rs1 rs2 imm => exact iff_true_intro (decode_fsw rs1 rs2 imm)
  | fused op rm rd rs1 rs2 rs3 => exact decode_fused_iff rd rs1 rs2 rs3 op rm
  | arith op rm rd rs1 rs2 => exact iff_true_intro (decode_arith rd rs1 rs2 op rm)
  | exact op rd rs1 rs2 => exact iff_true_intro (decode_exact rd rs1 rs2 op)
  | convert op rm rd rs1 => exact decode_convert_iff rd rs1 op rm
  | move op rd rs1 => exact iff_true_intro (decode_move rd rs1 op)

/-- `FMADD.S f0, f1, f2, f3`: the decoder reports `f2` as the third source. -/
theorem fmadds_loses_rs3 :
    ((InstructionDecoder.init.after []).decode
        (FInstr.fused .FMADDS 0 0 1 2 3).encode).1.toOption.map (fun ins => ins.f.rs3) = some 2
      ∧ ¬ ∃ ins, ((InstructionDecoder.init.after []).decode
          (FInstr.fused .FMADDS 0 0 1 2 3).encode).1 = .ok ins
        ∧ ReadsFloat ins (.fused .FMADDS 0 0 1 2 3) := by
  rw [InstructionDecoder.decode_after]
  refine ⟨?_, ?_⟩
  · obtain ⟨ins, hins, -, -, -, -, hrs3⟩ := decode_fused 0 1 2 3
      (by decide : FusedOp.FMADDS ≠ .FNMADDS) 0
    rw [hins]
    exact congrArg some (hrs3.trans (by decide))
  · rw [decode_fused_iff]
    decide

end Vemu
