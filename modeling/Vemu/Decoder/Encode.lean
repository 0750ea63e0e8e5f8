import Vemu.Decoder.Search
import Vemu.Decoder.Fields

/-!
# The decoder inverts the encoder

`Reads ins i` says that the decoder's instruction `ins` is `i`: the mnemonic, and every
operand that the format of `i` has.  **`decode_encode`**: after any history of calls, decoding
the encoding of `i` gives an instruction that reads `i`.

The proof has one lemma per format, each in the same four steps: the columns of the word
(`Decoder.Fields`), the format that its opcode leads to (`scanType_eq`), the one row of the
joined table that fits its codes (`Decoder.Search`), and the operands.
-/

namespace Vemu

open Fallible OrderedMap BitFields Riscv

/-! ## Mnemonics -/

def rName : ROp → IName
  | .ADD => .ADD | .SUB => .SUB | .SLL => .SLL | .SLT => .SLT | .SLTU => .SLTU | .XOR => .XOR
  | .SRL => .SRL | .SRA => .SRA | .OR => .OR | .AND => .AND
  | .ADDW => .ADDW | .SUBW => .SUBW | .SLLW => .SLLW | .SRLW => .SRLW | .SRAW => .SRAW
  | .MUL => .MUL | .MULH => .MULH | .MULHSU => .MULHSU | .MULHU => .MULHU
  | .DIV => .DIV | .DIVU => .DIVU | .REM => .REM | .REMU => .REMU
  | .MULW => .MULW | .DIVW => .DIVW | .DIVUW => .DIVUW | .REMW => .REMW | .REMUW => .REMUW

def iName : IOp → IName
  | .LB => .LB | .LH => .LH | .LW => .LW | .LD => .LD | .LBU => .LBU | .LHU => .LHU
  | .LWU => .LWU | .ADDI => .ADDI | .SLTI => .SLTI | .SLTIU => .SLTIU | .XORI => .XORI
  | .ORI => .ORI | .ANDI => .ANDI | .ADDIW => .ADDIW | .JALR => .JALR | .FENCE => .FENCE
  | .FENCEI => .FENCEI | .CSRRW => .CSRRW | .CSRRS => .CSRRS | .CSRRC => .CSRRC
  | .CSRRWI => .CSRRWI | .CSRRSI => .CSRRSI | .CSRRCI => .CSRRCI

def shiftName : ShiftOp → IName
  | .SLLI => .SLLI | .SRLI => .SRLI | .SRAI => .SRAI

def shiftWName : ShiftWOp → IName
  | .SLLIW => .SLLIW | .SRLIW => .SRLIW | .SRAIW => .SRAIW

def sName : SOp → IName
  | .SB => .SB | .SH => .SH | .SW => .SW | .SD => .SD

def bName : BOp → IName
  | .BEQ => .BEQ | .BNE => .BNE | .BLT => .BLT | .BGE => .BGE | .BLTU => .BLTU | .BGEU => .BGEU

def uName : UOp → IName
  | .LUI => .LUI | .AUIPC => .AUIPC

def amoName (double : Bool) : AmoOp → IName
  | .SC => if double then .SCD else .SCW
  | .AMOSWAP => if double then .AMOSWAPD else .AMOSWAPW
  | .AMOADD => if double then .AMOADDD else .AMOADDW
  | .AMOXOR => if double then .AMOXORD else .AMOXORW
  | .AMOAND => if double then .AMOANDD else .AMOANDW
  | .AMOOR => if double then .AMOORD else .AMOORW
  | .AMOMIN => if double then .AMOMIND else .AMOMINW
  | .AMOMAX => if double then .AMOMAXD else .AMOMAXW
  | .AMOMINU => if double then .AMOMINUD else .AMOMINUW
  | .AMOMAXU => if double then .AMOMAXUD else .AMOMAXUW

def lrName (double : Bool) : IName := if double then .LRD else .LRW

def systemName : SystemOp → IName
  | .ECALL => .ECALL | .EBREAK => .EBREAK | .SRET => .SRET | .MRET => .MRET

/-- **What the decoder has to report of an instruction.**  For a shift by an immediate this is
the amount in the low bits of the immediate; the words without operands have their columns
fixed. -/
def Reads (ins : Instruction) : Instr → Prop
  | .r op rd rs1 rs2 =>
      ins.name = rName op ∧ ins.f.rd = rd ∧ ins.f.rs1 = rs1 ∧ ins.f.rs2 = rs2
  | .i op rd rs1 imm =>
      ins.name = iName op ∧ ins.f.rd = rd ∧ ins.f.rs1 = rs1 ∧ ins.f.imm = imm.signExtend 32
  | .shift op rd rs1 shamt =>
      ins.name = shiftName op ∧ ins.f.rd = rd ∧ ins.f.rs1 = rs1
        ∧ ins.f.imm &&& 0x3F = shamt.setWidth 32
  | .shiftW op rd rs1 shamt =>
      ins.name = shiftWName op ∧ ins.f.rd = rd ∧ ins.f.rs1 = rs1
        ∧ ins.f.imm &&& 0x1F = shamt.setWidth 32
  | .s op rs1 rs2 imm =>
      ins.name = sName op ∧ ins.f.rs1 = rs1 ∧ ins.f.rs2 = rs2
        ∧ ins.f.imm = imm.signExtend 32
  | .b op rs1 rs2 halfwords =>
      ins.name = bName op ∧ ins.f.rs1 = rs1 ∧ ins.f.rs2 = rs2
        ∧ ins.f.imm = (offset halfwords).signExtend 32
  | .u op rd imm => ins.name = uName op ∧ ins.f.rd = rd ∧ ins.f.imm = upper imm
  | .jal rd halfwords =>
      ins.name = .JAL ∧ ins.f.rd = rd ∧ ins.f.imm = (offset halfwords).signExtend 32
  | .amo op double _ _ rd rs1 rs2 =>
      ins.name = amoName double op ∧ ins.f.rd = rd ∧ ins.f.rs1 = rs1 ∧ ins.f.rs2 = rs2
  | .lr double _ _ rd rs1 => ins.name = lrName double ∧ ins.f.rd = rd ∧ ins.f.rs1 = rs1
  | .system op => ins.name = systemName op ∧ ins.f.rd = 0 ∧ ins.f.rs1 = 0 ∧
      match op with
      | .ECALL => ins.f.imm = 0
      | .EBREAK => ins.f.imm = 1
      | .SRET | .MRET => ins.f.rs2 = 2

/-! ## One format after the other -/

section Formats

variable (rd rs1 rs2 : Reg)

/-- A word of a register format: the one row that fits its codes decides. -/
lemma decode_word {n : IName} {funct7 : BitVec 7} {funct3 : BitVec 3} {opcode : BitVec 7}
    (ht : formatOf (opcode.setWidth 8) = .R) (hfp : (opcode.setWidth 8 == fpROpcode) = false)
    (hn : unprinted n = false)
    (hrow : (rRows.find? (fitsR (opcode.setWidth 8) (funct3.setWidth 8)
      (funct7.setWidth 8))).map Prod.fst = some n) :
    ∃ ins, decodeOf (word funct7 rs2 rs1 funct3 rd opcode) = .ok ins
      ∧ ins.name = n ∧ ins.f.rd = rd ∧ ins.f.rs1 = rs1 ∧ ins.f.rs2 = rs2 := by
  set w := word funct7 rs2 rs1 funct3 rd opcode with hw
  have hop : extractOpcode w = opcode.setWidth 8 := extractOpcode_word ..
  have hf3 : extractFunct3 w = funct3.setWidth 8 := extractFunct3_word ..
  have hf7 : extractFunct7 w = funct7.setWidth 8 := extractFunct7_word ..
  have hsys : extractOpcode w ≠ 0b1110011 := by
    intro h
    rw [← hop, h] at ht
    exact absurd ht (by decide)
  have hdec : decodeOf w = found .R (fieldsWith w 0) (some n) := by
    rw [decodeOf_eq_search (by rw [hop, ht]) (Or.inl hsys), searchOf, isFpInstr, hop, hfp,
      if_neg (by simp), searchR_eq]
    simp only [fieldsWith, hop, hf3, hf7, hrow, immediateOf]
  obtain ⟨s, hs⟩ := found_some hn .R (fieldsWith w 0)
  exact ⟨_, hdec.trans hs, rfl, extractRd_word .., extractRs1_word .., extractRs2_word ..⟩

lemma decode_r (op : ROp) :
    ∃ ins, decodeOf (Instr.r op rd rs1 rs2).encode = .ok ins
      ∧ Reads ins (.r op rd rs1 rs2) := by
  refine decode_word rd rs1 rs2 ?_ ?_ ?_ ?_
  · cases op <;> decide
  · cases op <;> decide
  · cases op <;> rfl
  · cases op <;> decide +kernel

lemma decode_amo (op : AmoOp) (double aq rl : Bool) :
    ∃ ins, decodeOf (Instr.amo op double aq rl rd rs1 rs2).encode = .ok ins
      ∧ Reads ins (.amo op double aq rl rd rs1 rs2) := by
  refine decode_word rd rs1 rs2 (by decide) (by decide) ?_ ?_
  · cases op <;> cases double <;> rfl
  · cases op <;> cases double <;> cases aq <;> cases rl <;> decide +kernel

/-- A word with the codes of a load reserved, whatever its second source and its free bits. -/
lemma decode_wordLr (double : Bool) {funct7 : BitVec 7} (h : funct7.extractLsb' 2 5 = lrCode) :
    ∃ ins, decodeOf (word funct7 rs2 rs1 (amoWidth double) rd 0b0101111) = .ok ins
      ∧ ins.name = lrName double ∧ ins.f.rd = rd ∧ ins.f.rs1 = rs1 := by
  have hrow : ∀ double, ∀ funct7 : BitVec 7, funct7.extractLsb' 2 5 = lrCode →
      (rRows.find? (fitsR 0b0101111 ((amoWidth double).setWidth 8)
        (funct7.setWidth 8))).map Prod.fst = some (lrName double) := by
    decide +kernel
  obtain ⟨ins, hins, hname, hrd, hrs1, -⟩ := @decode_word rd rs1 rs2 (lrName double) funct7
    (amoWidth double) 0b0101111 (by decide) (by decide) (by cases double <;> rfl)
    (hrow double funct7 h)
  exact ⟨ins, hins, hname, hrd, hrs1⟩

lemma decode_lr (double aq rl : Bool) :
    ∃ ins, decodeOf (Instr.lr double aq rl rd rs1).encode = .ok ins
      ∧ Reads ins (.lr double aq rl rd rs1) :=
  decode_wordLr rd rs1 0 double (amoFunct7_code lrCode aq rl)

/-- A word of the I format: among the rows with its opcode and `funct3`, the first whose own
condition it meets decides. -/
lemma decode_wordI {n : IName} {imm : BitVec 12} {funct3 : BitVec 3} {opcode : BitVec 7}
    (ht : formatOf (opcode.setWidth 8) = .I) (hsys : opcode ≠ 0b1110011 ∨ funct3 ≠ 0)
    (hn : unprinted n = false)
    (hrow : ((iRows.filter fun r =>
        r.2.1 == opcode.setWidth 8 && r.2.2 == funct3.setWidth 8).find? fun r =>
          iGuard ((imm.extractLsb' 5 7).setWidth 8)
            (((imm.extractLsb' 5 7).extractLsb' 1 6).setWidth 8)
            (imm.signExtend 32) r.1).map Prod.fst = some n) :
    ∃ ins, decodeOf (wordI imm rs1 funct3 rd opcode) = .ok ins
      ∧ ins.name = n ∧ ins.f.rd = rd ∧ ins.f.rs1 = rs1 ∧ ins.f.imm = imm.signExtend 32 := by
  set w := wordI imm rs1 funct3 rd opcode with hw
  have hop : extractOpcode w = opcode.setWidth 8 := extractOpcode_word ..
  have hf3 : extractFunct3 w = funct3.setWidth 8 := extractFunct3_word ..
  have hf7 : extractFunct7 w = (imm.extractLsb' 5 7).setWidth 8 := extractFunct7_word ..
  have hf6 : extractFunct6 w = ((imm.extractLsb' 5 7).extractLsb' 1 6).setWidth 8 :=
    extractFunct6_word ..
  have himm : immI w = imm.signExtend 32 := immI_wordI ..
  have hsys' : extractOpcode w ≠ 0b1110011 ∨ extractFunct3 w ≠ 0 := by
    rw [hop, hf3]
    refine hsys.imp ?_ ?_
    · intro h h'
      exact h (by simpa using congrArg (BitVec.setWidth 7) h')
    · intro h h'
      exact h (by simpa using congrArg (BitVec.setWidth 3) h')
  have hdec : decodeOf w = found .I (fieldsWith w (immI w)) (some n) := by
    rw [decodeOf_eq_search (by rw [hop, ht]) hsys', searchOf, searchI_eq]
    simp only [fieldsWith, hop, hf3, hf7, hf6, immediateOf, himm, hrow]
  obtain ⟨s, hs⟩ := found_some hn .I (fieldsWith w (immI w))
  exact ⟨_, hdec.trans hs, rfl, extractRd_word .., extractRs1_word .., himm⟩

lemma decode_i (op : IOp) (imm : BitVec 12) :
    ∃ ins, decodeOf (Instr.i op rd rs1 imm).encode = .ok ins
      ∧ Reads ins (.i op rd rs1 imm) := by
  -- no other row shares the opcode and `funct3` of these, except for the shifts and the
  -- environment instructions, whose own condition the word may or may not meet
  have hrows : (iRows.filter fun r => r.2.1 == op.code.1.setWidth 8
      && r.2.2 == op.code.2.setWidth 8) = [(iName op, op.code.1.setWidth 8, op.code.2.setWidth 8)] := by
    cases op <;> decide +kernel
  refine decode_wordI rd rs1 ?_ ?_ ?_ ?_
  · cases op <;> decide
  · cases op <;> decide
  · cases op <;> rfl
  · rw [hrows]
    cases op <;> rfl

/-- The low bits of a sign-extended immediate are its low column. -/
lemma shamt_of_imm {m n : ℕ} (code : BitVec m) (shamt : BitVec n) :
    (code ++ shamt).signExtend 32 &&& mask 32 0 n = shamt.setWidth 32 := by
  apply BitVec.eq_of_getLsbD_eq
  intro i hi
  by_cases hin : i < n
  · have hbit : ((code ++ shamt).signExtend 32).getLsbD i = shamt.getLsbD i := by
      rw [BitVec.getLsbD_signExtend, BitVec.getLsbD_append, if_pos (by omega), if_pos hin]
      simp [hi]
    rw [BitVec.getLsbD_and, hbit]
    simp [mask, hi, hin]
  · simp [mask, hin, BitVec.getLsbD_of_ge shamt i (by omega)]

lemma decode_shift (op : ShiftOp) (shamt : BitVec 6) :
    ∃ ins, decodeOf (Instr.shift op rd rs1 shamt).encode = .ok ins
      ∧ Reads ins (.shift op rd rs1 shamt) := by
  obtain ⟨ins, hins, hname, hrd, hrs1, himm⟩ := @decode_wordI rd rs1 (shiftName op)
    (op.code.2 ++ shamt) op.code.1 0b0010011 (by decide) (Or.inl (by decide))
    (by cases op <;> rfl) (by rw [shift_code]; cases op <;> rfl)
  refine ⟨ins, hins, hname, hrd, hrs1, ?_⟩
  rw [himm]
  exact shamt_of_imm op.code.2 shamt

lemma decode_shiftW (op : ShiftWOp) (shamt : BitVec 5) :
    ∃ ins, decodeOf (Instr.shiftW op rd rs1 shamt).encode = .ok ins
      ∧ Reads ins (.shiftW op rd rs1 shamt) := by
  obtain ⟨ins, hins, hname, hrd, hrs1, himm⟩ := @decode_wordI rd rs1 (shiftWName op)
    (op.code.2 ++ shamt) op.code.1 0b0011011 (by decide) (Or.inl (by decide))
    (by cases op <;> rfl) (by rw [shiftW_code]; cases op <;> rfl)
  refine ⟨ins, hins, hname, hrd, hrs1, ?_⟩
  rw [himm]
  exact shamt_of_imm op.code.2 shamt

/-- A word of the S format: the one row that fits its codes decides. -/
lemma decode_wordS {n : IName} {imm : BitVec 12} {funct3 : BitVec 3} {opcode : BitVec 7}
    (ht : formatOf (opcode.setWidth 8) = .S) (hsys : opcode ≠ 0b1110011)
    (hn : unprinted n = false)
    (hrow : (sRows.find? fun r =>
      opcode.setWidth 8 == r.2.1 && r.2.2 == funct3.setWidth 8).map Prod.fst = some n) :
    ∃ ins, decodeOf (wordS imm rs2 rs1 funct3 opcode) = .ok ins
      ∧ ins.name = n ∧ ins.f.rs1 = rs1 ∧ ins.f.rs2 = rs2 ∧ ins.f.imm = imm.signExtend 32 := by
  set w := wordS imm rs2 rs1 funct3 opcode with hw
  have hop : extractOpcode w = opcode.setWidth 8 := extractOpcode_word ..
  have hf3 : extractFunct3 w = funct3.setWidth 8 := extractFunct3_word ..
  have himm : immS w = imm.signExtend 32 := immS_wordS ..
  have hsys' : extractOpcode w ≠ 0b1110011 := by
    rw [hop]
    intro h
    exact hsys (by simpa using congrArg (BitVec.setWidth 7) h)
  have hdec : decodeOf w = found .S (fieldsWith w (immS w)) (some n) := by
    rw [decodeOf_eq_search (by rw [hop, ht]) (Or.inl hsys'), searchOf, searchS_eq]
    simp only [fieldsWith, hop, hf3, hrow, immediateOf]
  obtain ⟨s, hs⟩ := found_some hn .S (fieldsWith w (immS w))
  exact ⟨_, hdec.trans hs, rfl, extractRs1_word .., extractRs2_word .., himm⟩

lemma decode_s (op : SOp) (imm : BitVec 12) :
    ∃ ins, decodeOf (Instr.s op rs1 rs2 imm).encode = .ok ins
      ∧ Reads ins (.s op rs1 rs2 imm) := by
  refine decode_wordS rs1 rs2 (by decide) (by decide) ?_ ?_
  · cases op <;> rfl
  · cases op <;> decide

lemma decode_b (op : BOp) (halfwords : BitVec 12) :
    ∃ ins, decodeOf (Instr.b op rs1 rs2 halfwords).encode = .ok ins
      ∧ Reads ins (.b op rs1 rs2 halfwords) := by
  set w := wordB halfwords rs2 rs1 op.code 0b1100011 with hw
  have hop : extractOpcode w = 0b1100011 := extractOpcode_word ..
  have hf3 : extractFunct3 w = op.code.setWidth 8 := extractFunct3_word ..
  have himm : immB w = (offset halfwords).signExtend 32 := immB_wordB ..
  have hrow : (bRows.find? fun r => 0b1100011 == r.2.1 && r.2.2 == op.code.setWidth 8).map
      Prod.fst = some (bName op) := by
    cases op <;> decide
  have hdec : decodeOf w = found .B (fieldsWith w (immB w)) (some (bName op)) := by
    rw [@decodeOf_eq_search _ .B (by rw [hop]; decide) (Or.inl (by rw [hop]; decide)),
      searchOf, searchB_eq]
    simp only [fieldsWith, hop, hf3, hrow, immediateOf]
  obtain ⟨s, hs⟩ := @found_some (bName op) (by cases op <;> rfl) .B (fieldsWith w (immB w))
  exact ⟨_, hdec.trans hs, rfl, extractRs1_word .., extractRs2_word .., himm⟩

lemma decode_u (op : UOp) (imm : BitVec 20) :
    ∃ ins, decodeOf (Instr.u op rd imm).encode = .ok ins ∧ Reads ins (.u op rd imm) := by
  set w := wordU imm rd op.code with hw
  have hop : extractOpcode w = op.code.setWidth 8 := extractOpcode_word ..
  have himm : immU w = upper imm := immU_wordU ..
  have hrow : (uOpcodes.find? fun e => e.2 == op.code.setWidth 8).map Prod.fst
      = some (uName op) := by
    cases op <;> decide
  have hdec : decodeOf w = found .U (fieldsWith w (immU w)) (some (uName op)) := by
    rw [@decodeOf_eq_search _ .U (by rw [hop]; cases op <;> decide)
      (Or.inl (by rw [hop]; cases op <;> decide)), searchOf, searchU_eq]
    simp only [fieldsWith, hop, hrow, immediateOf]
  obtain ⟨s, hs⟩ := @found_some (uName op) (by cases op <;> rfl) .U (fieldsWith w (immU w))
  exact ⟨_, hdec.trans hs, rfl, extractRd_word .., himm⟩

lemma decode_jal (halfwords : BitVec 20) :
    ∃ ins, decodeOf (Instr.jal rd halfwords).encode = .ok ins
      ∧ Reads ins (.jal rd halfwords) := by
  set w := wordJ halfwords rd 0b1101111 with hw
  have hop : extractOpcode w = 0b1101111 := extractOpcode_word ..
  have himm : immJ w = (offset halfwords).signExtend 32 := immJ_wordJ ..
  have hrow : (jOpcodes.find? fun e => e.2 == (0b1101111 : U8)).map Prod.fst = some .JAL := by
    decide
  have hdec : decodeOf w = found .J (fieldsWith w (immJ w)) (some .JAL) := by
    rw [@decodeOf_eq_search _ .J (by rw [hop]; decide) (Or.inl (by rw [hop]; decide)),
      searchOf, searchJ_eq]
    simp only [fieldsWith, hop, hrow, immediateOf]
  obtain ⟨s, hs⟩ := @found_some .JAL rfl .J (fieldsWith w (immJ w))
  exact ⟨_, hdec.trans hs, rfl, extractRd_word .., himm⟩

end Formats

/-- The words without operands: the two environment instructions are found in the I table, the
two trap returns in the cache. -/
lemma decode_system (op : SystemOp) :
    ∃ ins, decodeOf (Instr.system op).encode = .ok ins ∧ Reads ins (.system op) := by
  cases op with
  | ECALL =>
      have h : decodeOf SystemOp.ECALL.word
          = .ok ⟨.I, .ECALL, fieldsOf SystemOp.ECALL.word, "ECALL"⟩ := by decide +kernel
      exact ⟨_, h, rfl, by decide +kernel, by decide +kernel, by decide +kernel⟩
  | EBREAK =>
      have h : decodeOf SystemOp.EBREAK.word
          = .ok ⟨.I, .EBREAK, fieldsOf SystemOp.EBREAK.word, "EBREAK"⟩ := by decide +kernel
      exact ⟨_, h, rfl, by decide +kernel, by decide +kernel, by decide +kernel⟩
  | SRET =>
      have h : decodeOf SystemOp.SRET.word = .ok sretInstr := if_pos rfl
      exact ⟨_, h, rfl, rfl, rfl, rfl⟩
  | MRET =>
      have h : decodeOf SystemOp.MRET.word = .ok mretInstr :=
        (if_neg (by decide)).trans (if_pos rfl)
      exact ⟨_, h, rfl, rfl, rfl, rfl⟩

/-- **The decoder inverts the encoder**, whatever it was asked before. -/
theorem decode_encode (history : List U32) (i : Instr) :
    ∃ ins, ((InstructionDecoder.init.after history).decode i.encode).1 = .ok ins
      ∧ Reads ins i := by
  rw [InstructionDecoder.decode_after]
  cases i with
  | r op rd rs1 rs2 => exact decode_r rd rs1 rs2 op
  | i op rd rs1 imm => exact decode_i rd rs1 op imm
  | shift op rd rs1 shamt => exact decode_shift rd rs1 op shamt
  | shiftW op rd rs1 shamt => exact decode_shiftW rd rs1 op shamt
  | s op rs1 rs2 imm => exact decode_s rs1 rs2 op imm
  | b op rs1 rs2 halfwords => exact decode_b rs1 rs2 op halfwords
  | u op rd imm => exact decode_u rd op imm
  | jal rd halfwords => exact decode_jal rd halfwords
  | amo op double aq rl rd rs1 rs2 => exact decode_amo rd rs1 rs2 op double aq rl
  | lr double aq rl rd rs1 => exact decode_lr rd rs1 double aq rl
  | system op => exact decode_system op

end Vemu
