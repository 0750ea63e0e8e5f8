import Vemu.Riscv.FloatEncoding

/-!
# Instructions without their operands

A `Form` is an instruction without its operands, and `fill` reads the operands off a word.  What it
reads off an encoded instruction are the operands that it was encoded with (`fill_encode`), so two
instructions of one form have different encodings.

The immediates are scattered over a word; put together from their pieces and scattered again, they
are back where they were (`wordI_columns` to `wordJ_columns`).
-/

namespace Riscv

open BitFields

/-! ## Forms -/

/-- An instruction of RV64IMAF, Zicsr or Zifencei, or a trap return. -/
inductive Standard
  | integer (i : Instr)
  | float (i : FInstr)
  deriving DecidableEq, Repr

def Standard.encode : Standard → BitVec 32
  | .integer i => i.encode
  | .float i => i.encode

inductive Form
  | r (op : ROp) | i (op : IOp) | shift (op : ShiftOp) | shiftW (op : ShiftWOp)
  | s (op : SOp) | b (op : BOp) | u (op : UOp) | jal
  | amo (op : AmoOp) (double : Bool) | lr (double : Bool) | system (op : SystemOp)
  | flw | fsw | fused (op : FusedOp) | arith (op : FArithOp) | exact (op : FExactOp)
  | convert (op : FConvertOp) | move (op : FMoveOp)
  deriving DecidableEq, Repr

def Instr.form : Instr → Form
  | .r op .. => .r op
  | .i op .. => .i op
  | .shift op .. => .shift op
  | .shiftW op .. => .shiftW op
  | .s op .. => .s op
  | .b op .. => .b op
  | .u op .. => .u op
  | .jal .. => .jal
  | .amo op double .. => .amo op double
  | .lr double .. => .lr double
  | .system op => .system op

def FInstr.form : FInstr → Form
  | .flw .. => .flw
  | .fsw .. => .fsw
  | .fused op .. => .fused op
  | .arith op .. => .arith op
  | .exact op .. => .exact op
  | .convert op .. => .convert op
  | .move op .. => .move op

def Standard.form : Standard → Form
  | .integer i => i.form
  | .float i => i.form

/-! ## Operands of a word -/

section Operands

variable (w : BitVec 32)

def rdOf : BitVec 5 := w.extractLsb' 7 5
def rs1Of : BitVec 5 := w.extractLsb' 15 5
def rs2Of : BitVec 5 := w.extractLsb' 20 5
def rs3Of : BitVec 5 := w.extractLsb' 27 5
def rmOf : BitVec 3 := w.extractLsb' 12 3

def immOfI : BitVec 12 := w.extractLsb' 20 12
def immOfS : BitVec 12 := w.extractLsb' 25 7 ++ w.extractLsb' 7 5
def immOfU : BitVec 20 := w.extractLsb' 12 20

/-- Bits 12, 11, 10–5 and 4–1 of a branch offset. -/
def halfwordsB : BitVec 12 :=
  w.extractLsb' 31 1 ++ w.extractLsb' 7 1 ++ w.extractLsb' 25 6 ++ w.extractLsb' 8 4

/-- Bits 20, 19–12, 11 and 10–1 of a jump offset. -/
def halfwordsJ : BitVec 20 :=
  w.extractLsb' 31 1 ++ w.extractLsb' 12 8 ++ w.extractLsb' 20 1 ++ w.extractLsb' 21 10

/-- **The instruction of a form with the operands of a word.** -/
def Form.fill : Form → Standard
  | .r op => .integer (.r op (rdOf w) (rs1Of w) (rs2Of w))
  | .i op => .integer (.i op (rdOf w) (rs1Of w) (immOfI w))
  | .shift op => .integer (.shift op (rdOf w) (rs1Of w) (w.extractLsb' 20 6))
  | .shiftW op => .integer (.shiftW op (rdOf w) (rs1Of w) (rs2Of w))
  | .s op => .integer (.s op (rs1Of w) (rs2Of w) (immOfS w))
  | .b op => .integer (.b op (rs1Of w) (rs2Of w) (halfwordsB w))
  | .u op => .integer (.u op (rdOf w) (immOfU w))
  | .jal => .integer (.jal (rdOf w) (halfwordsJ w))
  | .amo op double =>
      .integer (.amo op double (w.getLsbD 26) (w.getLsbD 25) (rdOf w) (rs1Of w) (rs2Of w))
  | .lr double => .integer (.lr double (w.getLsbD 26) (w.getLsbD 25) (rdOf w) (rs1Of w))
  | .system op => .integer (.system op)
  | .flw => .float (.flw (rdOf w) (rs1Of w) (immOfI w))
  | .fsw => .float (.fsw (rs1Of w) (rs2Of w) (immOfS w))
  | .fused op => .float (.fused op (rmOf w) (rdOf w) (rs1Of w) (rs2Of w) (rs3Of w))
  | .arith op => .float (.arith op (rmOf w) (rdOf w) (rs1Of w) (rs2Of w))
  | .exact op => .float (.exact op (rdOf w) (rs1Of w) (rs2Of w))
  | .convert op => .float (.convert op (rmOf w) (rdOf w) (rs1Of w))
  | .move op => .float (.move op (rdOf w) (rs1Of w))

/-! ## Scattered immediates -/

/-- A field in two pieces. -/
lemma extractLsb'_append_extractLsb' {n : ℕ} (x : BitVec n) (lo low high : ℕ) :
    x.extractLsb' (lo + low) high ++ x.extractLsb' lo low = x.extractLsb' lo (high + low) := by
  apply BitVec.eq_of_getLsbD_eq
  intro i hi
  simp only [BitVec.getLsbD_append, BitVec.getLsbD_extractLsb']
  grind

lemma wordI_columns :
    wordI (immOfI w) (rs1Of w) (w.extractLsb' 12 3) (rdOf w) (w.extractLsb' 0 7) = w := by
  have hhigh : (immOfI w).extractLsb' 5 7 = w.extractLsb' 25 7 :=
    extractLsb'_extractLsb' w 20 12 5 7 (by decide)
  have hlow : (immOfI w).extractLsb' 0 5 = w.extractLsb' 20 5 :=
    extractLsb'_extractLsb' w 20 12 0 5 (by decide)
  rw [wordI, hhigh, hlow]
  exact (eq_word w).symm

lemma wordS_columns :
    wordS (immOfS w) (rs2Of w) (rs1Of w) (w.extractLsb' 12 3) (w.extractLsb' 0 7) = w := by
  have hhigh : (immOfS w).extractLsb' 5 7 = w.extractLsb' 25 7 :=
    (column (w.extractLsb' 25 7) (w.extractLsb' 7 5) 0 7).trans BitVec.extractLsb'_eq_self
  have hlow : (immOfS w).extractLsb' 0 5 = w.extractLsb' 7 5 := lastColumn _ _
  rw [wordS, hhigh, hlow]
  exact (eq_word w).symm

lemma getElem_halfwordsB (i : ℕ) (hi : i < 12) :
    (halfwordsB w)[i]
      = if i < 4 then w.getLsbD (8 + i) else if i < 10 then w.getLsbD (21 + i)
        else if i < 11 then w.getLsbD 7 else w.getLsbD 31 := by
  rw [← BitVec.getLsbD_eq_getElem, halfwordsB, BitVec.getLsbD_append, BitVec.getLsbD_append,
    BitVec.getLsbD_append]
  interval_cases i <;> simp

lemma getElem_halfwordsJ (i : ℕ) (hi : i < 20) :
    (halfwordsJ w)[i]
      = if i < 10 then w.getLsbD (21 + i) else if i < 11 then w.getLsbD 20
        else if i < 19 then w.getLsbD (1 + i) else w.getLsbD 31 := by
  rw [← BitVec.getLsbD_eq_getElem, halfwordsJ, BitVec.getLsbD_append, BitVec.getLsbD_append,
    BitVec.getLsbD_append]
  interval_cases i <;> simp

lemma wordB_columns :
    wordB (halfwordsB w) (rs2Of w) (rs1Of w) (w.extractLsb' 12 3) (w.extractLsb' 0 7) = w := by
  have hhigh : branchHigh (halfwordsB w) = w.extractLsb' 25 7 := by
    apply BitVec.eq_of_getElem_eq
    intro i hi
    rw [getElem_branchHigh]
    interval_cases i <;> simp [getElem_halfwordsB]
  have hlow : branchLow (halfwordsB w) = w.extractLsb' 7 5 := by
    apply BitVec.eq_of_getElem_eq
    intro i hi
    rw [getElem_branchLow]
    interval_cases i <;> simp [getElem_halfwordsB]
  rw [wordB, hhigh, hlow]
  exact (eq_word w).symm

lemma wordU_columns : wordU (immOfU w) (rdOf w) (w.extractLsb' 0 7) = w := by
  have hpiece : ∀ lo len, lo + len ≤ 20 →
      (immOfU w).extractLsb' lo len = w.extractLsb' (12 + lo) len :=
    fun lo len h => extractLsb'_extractLsb' w 12 20 lo len h
  rw [wordU, hpiece 13 7 (by decide), hpiece 8 5 (by decide), hpiece 3 5 (by decide),
    hpiece 0 3 (by decide)]
  exact (eq_word w).symm

lemma jumpBits_halfwordsJ : jumpBits (halfwordsJ w) = immOfU w := by
  apply BitVec.eq_of_getElem_eq
  intro i hi
  rw [getElem_jumpBits]
  interval_cases i <;> simp [getElem_halfwordsJ, immOfU]

lemma wordJ_columns : wordJ (halfwordsJ w) (rdOf w) (w.extractLsb' 0 7) = w := by
  rw [wordJ, jumpBits_halfwordsJ]
  exact wordU_columns w

end Operands

/-! ## Operands of an encoded instruction -/

section Encoded

variable (rs2 rs1 rd : BitVec 5) (funct3 : BitVec 3) (opcode : BitVec 7)

@[simp] lemma rdOf_word (funct7 : BitVec 7) : rdOf (word funct7 rs2 rs1 funct3 rd opcode) = rd :=
  word_rd ..

@[simp] lemma rs1Of_word (funct7 : BitVec 7) :
    rs1Of (word funct7 rs2 rs1 funct3 rd opcode) = rs1 := word_rs1 ..

@[simp] lemma rs2Of_word (funct7 : BitVec 7) :
    rs2Of (word funct7 rs2 rs1 funct3 rd opcode) = rs2 := word_rs2 ..

@[simp] lemma rmOf_word (funct7 : BitVec 7) :
    rmOf (word funct7 rs2 rs1 funct3 rd opcode) = funct3 := word_funct3 ..

@[simp] lemma rs3Of_word (rs3 : BitVec 5) (fmt : BitVec 2) :
    rs3Of (word (rs3 ++ fmt) rs2 rs1 funct3 rd opcode) = rs3 :=
  (word_above (rs3 ++ fmt) rs2 rs1 funct3 rd opcode 2 5).trans
    ((column rs3 fmt 0 5).trans BitVec.extractLsb'_eq_self)

@[simp] lemma rdOf_wordI (imm : BitVec 12) : rdOf (wordI imm rs1 funct3 rd opcode) = rd :=
  word_rd ..

@[simp] lemma rs1Of_wordI (imm : BitVec 12) : rs1Of (wordI imm rs1 funct3 rd opcode) = rs1 :=
  word_rs1 ..

@[simp] lemma immOfI_wordI (imm : BitVec 12) : immOfI (wordI imm rs1 funct3 rd opcode) = imm := by
  set w := wordI imm rs1 funct3 rd opcode with hw
  have hhigh : w.extractLsb' 25 7 = imm.extractLsb' 5 7 := word_funct7 ..
  have hlow : w.extractLsb' 20 5 = imm.extractLsb' 0 5 := word_rs2 ..
  calc immOfI w = w.extractLsb' 25 7 ++ w.extractLsb' 20 5 :=
        (extractLsb'_append_extractLsb' w 20 5 7).symm
    _ = imm.extractLsb' 5 7 ++ imm.extractLsb' 0 5 := by rw [hhigh, hlow]
    _ = imm.extractLsb' 0 12 := extractLsb'_append_extractLsb' imm 0 5 7
    _ = imm := BitVec.extractLsb'_eq_self

@[simp] lemma rs1Of_wordS (imm : BitVec 12) : rs1Of (wordS imm rs2 rs1 funct3 opcode) = rs1 :=
  word_rs1 ..

@[simp] lemma rs2Of_wordS (imm : BitVec 12) : rs2Of (wordS imm rs2 rs1 funct3 opcode) = rs2 :=
  word_rs2 ..

@[simp] lemma immOfS_wordS (imm : BitVec 12) : immOfS (wordS imm rs2 rs1 funct3 opcode) = imm := by
  set w := wordS imm rs2 rs1 funct3 opcode with hw
  have hhigh : w.extractLsb' 25 7 = imm.extractLsb' 5 7 := word_funct7 ..
  have hlow : w.extractLsb' 7 5 = imm.extractLsb' 0 5 := word_rd ..
  calc immOfS w = imm.extractLsb' 5 7 ++ imm.extractLsb' 0 5 := by rw [immOfS, hhigh, hlow]
    _ = imm.extractLsb' 0 12 := extractLsb'_append_extractLsb' imm 0 5 7
    _ = imm := BitVec.extractLsb'_eq_self

@[simp] lemma rs1Of_wordB (halfwords : BitVec 12) :
    rs1Of (wordB halfwords rs2 rs1 funct3 opcode) = rs1 := word_rs1 ..

@[simp] lemma rs2Of_wordB (halfwords : BitVec 12) :
    rs2Of (wordB halfwords rs2 rs1 funct3 opcode) = rs2 := word_rs2 ..

@[simp] lemma halfwordsB_wordB (halfwords : BitVec 12) :
    halfwordsB (wordB halfwords rs2 rs1 funct3 opcode) = halfwords := by
  apply BitVec.eq_of_getElem_eq
  intro i hi
  rw [getElem_halfwordsB]
  interval_cases i <;> simp [wordB, getElem_word, getElem_branchHigh, getElem_branchLow]

@[simp] lemma rdOf_wordU (imm : BitVec 20) : rdOf (wordU imm rd opcode) = rd := word_rd ..

@[simp] lemma rdOf_wordJ (halfwords : BitVec 20) : rdOf (wordJ halfwords rd opcode) = rd :=
  word_rd ..

@[simp] lemma immOfU_wordU (imm : BitVec 20) : immOfU (wordU imm rd opcode) = imm := by
  apply BitVec.eq_of_getElem_eq
  intro i hi
  rw [immOfU, BitVec.getElem_extractLsb', BitVec.getLsbD_eq_getElem (by omega), wordU, getElem_word]
  interval_cases i <;> simp

@[simp] lemma halfwordsJ_wordJ (halfwords : BitVec 20) :
    halfwordsJ (wordJ halfwords rd opcode) = halfwords := by
  apply BitVec.eq_of_getElem_eq
  intro i hi
  rw [getElem_halfwordsJ]
  interval_cases i <;> simp [wordJ, wordU, getElem_word, getElem_jumpBits]

lemma getLsbD_amoFunct7 (code : BitVec 5) (aq rl : Bool) :
    (amoFunct7 code aq rl).getLsbD 1 = aq ∧ (amoFunct7 code aq rl).getLsbD 0 = rl := by
  rw [amoFunct7, BitVec.getLsbD_append, BitVec.getLsbD_append, BitVec.getLsbD_append]
  simp

/-- The two bits between the operation and the second source of an atomic. -/
lemma getLsbD_word_amoFunct7 (code : BitVec 5) (aq rl : Bool) :
    (word (amoFunct7 code aq rl) rs2 rs1 funct3 rd opcode).getLsbD 26 = aq
      ∧ (word (amoFunct7 code aq rl) rs2 rs1 funct3 rd opcode).getLsbD 25 = rl := by
  obtain ⟨haq, hrl⟩ := getLsbD_amoFunct7 code aq rl
  rw [BitVec.getLsbD_eq_getElem (by decide), BitVec.getLsbD_eq_getElem (by decide), getElem_word,
    getElem_word]
  exact ⟨haq, hrl⟩

end Encoded

/-- **The operands of an encoded instruction** are those that it was encoded with. -/
theorem fill_encode (x : Standard) : x.form.fill x.encode = x := by
  cases x with
  | integer i =>
      cases i with
      | shift op rd rs1 shamt =>
          have hfield := extractLsb'_extractLsb'
            (wordI (op.code.2 ++ shamt) rs1 op.code.1 rd 0b0010011) 20 12 0 6 (by decide)
          have himm := congrArg (BitVec.extractLsb' 0 6)
            (immOfI_wordI rs1 rd op.code.1 0b0010011 (op.code.2 ++ shamt))
          have hshamt : (wordI (op.code.2 ++ shamt) rs1 op.code.1 rd 0b0010011).extractLsb' 20 6
              = shamt := hfield.symm.trans (himm.trans (lastColumn op.code.2 shamt))
          simp only [Standard.form, Standard.encode, Instr.form, Instr.encode, Form.fill, hshamt,
            rdOf_wordI, rs1Of_wordI]
      | shiftW op rd rs1 shamt =>
          have hshamt : rs2Of (wordI (op.code.2 ++ shamt) rs1 op.code.1 rd 0b0011011) = shamt :=
            (word_rs2 ..).trans (lastColumn op.code.2 shamt)
          simp only [Standard.form, Standard.encode, Instr.form, Instr.encode, Form.fill, hshamt,
            rdOf_wordI, rs1Of_wordI]
      | amo op double aq rl rd rs1 rs2 =>
          obtain ⟨haq, hrl⟩ := getLsbD_word_amoFunct7 rs2 rs1 rd (amoWidth double) 0b0101111 op.code
            aq rl
          simp only [Standard.form, Standard.encode, Instr.form, Instr.encode, Form.fill, haq, hrl,
            rdOf_word, rs1Of_word, rs2Of_word]
      | lr double aq rl rd rs1 =>
          obtain ⟨haq, hrl⟩ :=
            getLsbD_word_amoFunct7 0 rs1 rd (amoWidth double) 0b0101111 lrCode aq rl
          simp only [Standard.form, Standard.encode, Instr.form, Instr.encode, Form.fill, haq, hrl,
            rdOf_word, rs1Of_word]
      | _ => simp [Standard.form, Standard.encode, Instr.form, Instr.encode, Form.fill]
  | float i =>
      cases i <;> simp [Standard.form, Standard.encode, FInstr.form, FInstr.encode, Form.fill]

/-- Two instructions of one form have different encodings. -/
lemma eq_of_form_eq {x y : Standard} (hform : x.form = y.form) (h : x.encode = y.encode) :
    x = y := by
  rw [← fill_encode x, ← fill_encode y, hform, h]

end Riscv
