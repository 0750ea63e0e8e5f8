import Vemu.Instruction
import Vemu.Riscv.Encoding

/-!
# Fields and immediates

What the decoder's masks and shifts take out of a word: its fields, except that the mask of `rs3`
misses a bit of the field (`extractRs3_eq`).  Of a word that was put together from its columns
they take out the columns themselves, and for each format the immediate that went into it,
sign-extended.
-/

namespace Vemu

open BitFields Riscv

/-! ## Fields of any word -/

section Fields

variable (w : U32)

lemma extractOpcode_eq : extractOpcode w = (w.extractLsb' 0 7).setWidth 8 := by
  have hmask : opcodeMask = mask 32 0 7 := by decide
  rw [extractOpcode, hmask, ← BitVec.ushiftRight_zero (_ &&& _), and_mask_ushiftRight]
  simp

lemma extractRd_eq : extractRd w = w.extractLsb' 7 5 := by
  have hmask : rdMask = mask 32 7 5 := by decide
  rw [extractRd, hmask, and_mask_ushiftRight]
  simp

lemma extractFunct3_eq : extractFunct3 w = (w.extractLsb' 12 3).setWidth 8 := by
  have hmask : funct3Mask = mask 32 12 3 := by decide
  rw [extractFunct3, hmask, and_mask_ushiftRight]
  simp

lemma extractRs1_eq : extractRs1 w = w.extractLsb' 15 5 := by
  have hmask : rs1Mask = mask 32 15 5 := by decide
  rw [extractRs1, hmask, and_mask_ushiftRight]
  simp

lemma extractRs2_eq : extractRs2 w = w.extractLsb' 20 5 := by
  have hmask : rs2Mask = mask 32 20 5 := by decide
  rw [extractRs2, hmask, and_mask_ushiftRight]
  simp

lemma extractFunct7_eq : extractFunct7 w = (w.extractLsb' 25 7).setWidth 8 := by
  have hmask : funct7Mask = mask 32 25 7 := by decide
  rw [extractFunct7, hmask, and_mask_ushiftRight]
  simp

lemma extractFunct6_eq : extractFunct6 w = (w.extractLsb' 26 6).setWidth 8 := by
  have hmask : funct6Mask = mask 32 26 6 := by decide
  rw [extractFunct6, hmask, and_mask_ushiftRight]
  simp

lemma extractFunct2_eq : extractFunct2 w = (w.extractLsb' 25 2).setWidth 8 := by
  have hmask : funct2Mask = mask 32 25 2 := by decide
  rw [extractFunct2, hmask, and_mask_ushiftRight]
  simp

/-- The mask of `rs3` leaves out the last bit of the field. -/
lemma extractRs3_eq : extractRs3 w = w.extractLsb' 27 5 &&& 0b11110 := by
  apply BitVec.eq_of_getElem_eq
  intro i hi
  interval_cases i <;> simp [extractRs3, rs3Mask]

lemma immI_eq : immI w = (w.extractLsb' 20 12).signExtend 32 := by
  apply BitVec.eq_of_getElem_eq
  intro i hi
  rw [immI, BitVec.getElem_sshiftRight, BitVec.getElem_signExtend]
  interval_cases i <;> simp [imm12Mask, BitVec.msb_eq_getLsbD_last]

end Fields

/-! ## Fields of an encoded word -/

section Columns

variable (funct7 : BitVec 7) (rs2 rs1 : BitVec 5) (funct3 : BitVec 3) (rd : BitVec 5)
  (opcode : BitVec 7)

lemma extractOpcode_word :
    extractOpcode (word funct7 rs2 rs1 funct3 rd opcode) = opcode.setWidth 8 := by
  rw [extractOpcode_eq, word_opcode]

lemma extractRd_word : extractRd (word funct7 rs2 rs1 funct3 rd opcode) = rd := by
  rw [extractRd_eq, word_rd]

lemma extractFunct3_word :
    extractFunct3 (word funct7 rs2 rs1 funct3 rd opcode) = funct3.setWidth 8 := by
  rw [extractFunct3_eq, word_funct3]

lemma extractRs1_word : extractRs1 (word funct7 rs2 rs1 funct3 rd opcode) = rs1 := by
  rw [extractRs1_eq, word_rs1]

lemma extractRs2_word : extractRs2 (word funct7 rs2 rs1 funct3 rd opcode) = rs2 := by
  rw [extractRs2_eq, word_rs2]

lemma extractFunct7_word :
    extractFunct7 (word funct7 rs2 rs1 funct3 rd opcode) = funct7.setWidth 8 := by
  rw [extractFunct7_eq, word_funct7]

lemma extractFunct6_word :
    extractFunct6 (word funct7 rs2 rs1 funct3 rd opcode)
      = (funct7.extractLsb' 1 6).setWidth 8 := by
  rw [extractFunct6_eq, word_above _ _ _ _ _ _ 1 6]

lemma extractFunct2_word :
    extractFunct2 (word funct7 rs2 rs1 funct3 rd opcode)
      = (funct7.extractLsb' 0 2).setWidth 8 := by
  rw [extractFunct2_eq, word_above _ _ _ _ _ _ 0 2]

lemma extractRs3_word :
    extractRs3 (word funct7 rs2 rs1 funct3 rd opcode)
      = funct7.extractLsb' 2 5 &&& 0b11110 := by
  rw [extractRs3_eq, word_above _ _ _ _ _ _ 2 5]

end Columns

/-! ## Immediates -/

lemma immI_wordI (imm : BitVec 12) (rs1 : BitVec 5) (funct3 : BitVec 3) (rd : BitVec 5)
    (opcode : BitVec 7) : immI (wordI imm rs1 funct3 rd opcode) = imm.signExtend 32 := by
  have h : (wordI imm rs1 funct3 rd opcode).extractLsb' 20 12 = imm := by
    apply BitVec.eq_of_getElem_eq
    intro i hi
    interval_cases i <;> simp [wordI, getElem_word]
  rw [immI_eq, h]

lemma immS_wordS (imm : BitVec 12) (rs2 rs1 : BitVec 5) (funct3 : BitVec 3)
    (opcode : BitVec 7) : immS (wordS imm rs2 rs1 funct3 opcode) = imm.signExtend 32 := by
  rw [immS, wordS, extractRd_word, @shiftLeft_sshiftRight 12 20 _ (by decide)]
  congr 1
  apply BitVec.eq_of_getElem_eq
  intro i hi
  interval_cases i <;> simp [funct7Mask, getElem_word]

lemma immB_wordB (halfwords : BitVec 12) (rs2 rs1 : BitVec 5) (funct3 : BitVec 3)
    (opcode : BitVec 7) :
    immB (wordB halfwords rs2 rs1 funct3 opcode) = (offset halfwords).signExtend 32 := by
  rw [immB, @shiftLeft_sshiftRight 13 19 _ (by decide)]
  congr 1
  apply BitVec.eq_of_getElem_eq
  intro i hi
  interval_cases i <;>
    simp [wordB, getElem_word, getElem_branchHigh, getElem_branchLow, getElem_offset, bInstImm0,
      bImm0, bInstImm1, bImm1, bInstImm2, bImm2, bInstImm3, bImm3]

lemma immU_wordU (imm : BitVec 20) (rd : BitVec 5) (opcode : BitVec 7) :
    immU (wordU imm rd opcode) = upper imm := by
  apply BitVec.eq_of_getElem_eq
  intro i hi
  interval_cases i <;> simp [immU, imm20Mask, wordU, getElem_word, getElem_upper]

lemma immJ_wordJ (halfwords : BitVec 20) (rd : BitVec 5) (opcode : BitVec 7) :
    immJ (wordJ halfwords rd opcode) = (offset halfwords).signExtend 32 := by
  rw [immJ, @shiftLeft_sshiftRight 21 11 _ (by decide)]
  congr 1
  apply BitVec.eq_of_getElem_eq
  intro i hi
  interval_cases i <;>
    simp [wordJ, wordU, getElem_word, getElem_jumpBits, getElem_offset, jInstImm0, jImm0,
      jInstImm1, jImm1, jInstImm2, jImm2, jInstImm3, jImm3, jInstImm4, jImm4]

end Vemu
