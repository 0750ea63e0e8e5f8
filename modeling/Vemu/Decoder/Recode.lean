import Vemu.Decoder.Sound
import Vemu.Refinement.Reading
import Vemu.Riscv.Forms

/-!
# The words that the decoder accepts

The bits that a mnemonic fixes leave the rest of a word to its operands, so a word that fits a
mnemonic is the encoding of an instruction (`encode_fill`), and of one only: no word fits two
mnemonics (`fits_unique`), and the operands can be read off it.  **`standard_iff`**

The decoder accepts these words, but for those of two instructions without a printed name, and the
overaccepted ones: **`accepts_iff`**.
-/

namespace Vemu

open Fallible BitFields Riscv

/-! ## Mnemonics of forms -/

def formName : Form → IName
  | .r op => rName op
  | .i op => iName op
  | .shift op => shiftName op
  | .shiftW op => shiftWName op
  | .s op => sName op
  | .b op => bName op
  | .u op => uName op
  | .jal => .JAL
  | .amo op double => amoName double op
  | .lr double => lrName double
  | .system op => systemName op
  | .flw => .FLW
  | .fsw => .FSW
  | .fused op => fusedName op
  | .arith op => arithName op
  | .exact op => exactName op
  | .convert op => convertName op
  | .move op => moveName op

def formOf : IName → Option Form
  | .ADD => some (.r .ADD) | .SUB => some (.r .SUB) | .SLL => some (.r .SLL)
  | .SLT => some (.r .SLT) | .SLTU => some (.r .SLTU) | .XOR => some (.r .XOR)
  | .SRL => some (.r .SRL) | .SRA => some (.r .SRA) | .OR => some (.r .OR)
  | .AND => some (.r .AND) | .ADDW => some (.r .ADDW) | .SUBW => some (.r .SUBW)
  | .SLLW => some (.r .SLLW) | .SRLW => some (.r .SRLW) | .SRAW => some (.r .SRAW)
  | .MUL => some (.r .MUL) | .MULH => some (.r .MULH) | .MULHSU => some (.r .MULHSU)
  | .MULHU => some (.r .MULHU) | .DIV => some (.r .DIV) | .DIVU => some (.r .DIVU)
  | .REM => some (.r .REM) | .REMU => some (.r .REMU) | .MULW => some (.r .MULW)
  | .DIVW => some (.r .DIVW) | .DIVUW => some (.r .DIVUW) | .REMW => some (.r .REMW)
  | .REMUW => some (.r .REMUW) | .LB => some (.i .LB) | .LH => some (.i .LH)
  | .LW => some (.i .LW) | .LD => some (.i .LD) | .LBU => some (.i .LBU) | .LHU => some (.i .LHU)
  | .LWU => some (.i .LWU) | .ADDI => some (.i .ADDI) | .SLTI => some (.i .SLTI)
  | .SLTIU => some (.i .SLTIU) | .XORI => some (.i .XORI) | .ORI => some (.i .ORI)
  | .ANDI => some (.i .ANDI) | .ADDIW => some (.i .ADDIW) | .JALR => some (.i .JALR)
  | .FENCE => some (.i .FENCE) | .FENCEI => some (.i .FENCEI) | .CSRRW => some (.i .CSRRW)
  | .CSRRS => some (.i .CSRRS) | .CSRRC => some (.i .CSRRC) | .CSRRWI => some (.i .CSRRWI)
  | .CSRRSI => some (.i .CSRRSI) | .CSRRCI => some (.i .CSRRCI) | .SLLI => some (.shift .SLLI)
  | .SRLI => some (.shift .SRLI) | .SRAI => some (.shift .SRAI) | .SLLIW => some (.shiftW .SLLIW)
  | .SRLIW => some (.shiftW .SRLIW) | .SRAIW => some (.shiftW .SRAIW) | .SB => some (.s .SB)
  | .SH => some (.s .SH) | .SW => some (.s .SW) | .SD => some (.s .SD) | .BEQ => some (.b .BEQ)
  | .BNE => some (.b .BNE) | .BLT => some (.b .BLT) | .BGE => some (.b .BGE)
  | .BLTU => some (.b .BLTU) | .BGEU => some (.b .BGEU) | .LUI => some (.u .LUI)
  | .AUIPC => some (.u .AUIPC) | .JAL => some .jal | .AMOSWAPW => some (.amo .AMOSWAP false)
  | .AMOSWAPD => some (.amo .AMOSWAP true) | .AMOADDW => some (.amo .AMOADD false)
  | .AMOADDD => some (.amo .AMOADD true) | .AMOXORW => some (.amo .AMOXOR false)
  | .AMOXORD => some (.amo .AMOXOR true) | .AMOANDW => some (.amo .AMOAND false)
  | .AMOANDD => some (.amo .AMOAND true) | .AMOORW => some (.amo .AMOOR false)
  | .AMOORD => some (.amo .AMOOR true) | .AMOMINW => some (.amo .AMOMIN false)
  | .AMOMIND => some (.amo .AMOMIN true) | .AMOMAXW => some (.amo .AMOMAX false)
  | .AMOMAXD => some (.amo .AMOMAX true) | .AMOMINUW => some (.amo .AMOMINU false)
  | .AMOMINUD => some (.amo .AMOMINU true) | .AMOMAXUW => some (.amo .AMOMAXU false)
  | .AMOMAXUD => some (.amo .AMOMAXU true) | .SCW => some (.amo .SC false)
  | .SCD => some (.amo .SC true) | .LRW => some (.lr false) | .LRD => some (.lr true)
  | .ECALL => some (.system .ECALL) | .EBREAK => some (.system .EBREAK)
  | .SRET => some (.system .SRET) | .MRET => some (.system .MRET) | .FLW => some .flw
  | .FSW => some .fsw | .FMADDS => some (.fused .FMADDS) | .FMSUBS => some (.fused .FMSUBS)
  | .FNMSUBS => some (.fused .FNMSUBS) | .FNMADDS => some (.fused .FNMADDS)
  | .FADDS => some (.arith .FADDS) | .FSUBS => some (.arith .FSUBS)
  | .FMULS => some (.arith .FMULS) | .FDIVS => some (.arith .FDIVS)
  | .FSGNJS => some (.exact .FSGNJS) | .FSGNJNS => some (.exact .FSGNJNS)
  | .FSGNJXS => some (.exact .FSGNJXS) | .FMINS => some (.exact .FMINS)
  | .FMAXS => some (.exact .FMAXS) | .FEQS => some (.exact .FEQS) | .FLTS => some (.exact .FLTS)
  | .FLES => some (.exact .FLES) | .FSQRTS => some (.convert .FSQRTS)
  | .FCVTWS => some (.convert .FCVTWS) | .FCVTWUS => some (.convert .FCVTWUS)
  | .FCVTLS => some (.convert .FCVTLS) | .FCVTLUS => some (.convert .FCVTLUS)
  | .FCVTSW => some (.convert .FCVTSW) | .FCVTSWU => some (.convert .FCVTSWU)
  | .FCVTSL => some (.convert .FCVTSL) | .FCVTSLU => some (.convert .FCVTSLU)
  | .FMVXW => some (.move .FMVXW) | .FMVWX => some (.move .FMVWX)
  | .FCLASSS => some (.move .FCLASSS) | .XXX => none

/-- Every mnemonic but `XXX` is that of a form. -/
lemma formName_formOf {n : IName} (h : n ≠ .XXX) : ∃ f, formName f = n := by
  have htable : ∀ n ∈ IName.all, n ≠ .XXX → (formOf n).map formName = some n := by decide +kernel
  obtain ⟨f, -, hf⟩ := Option.map_eq_some_iff.mp (htable n n.mem_all h)
  exact ⟨f, hf⟩

lemma formOf_formName (f : Form) : formOf (formName f) = some f := by
  cases f with
  | jal | flw | fsw => rfl
  | amo op double => cases op <;> cases double <;> rfl
  | lr double => cases double <;> rfl
  | r op | i op | shift op | shiftW op | s op | b op | u op | system op | fused op | arith op
  | exact op | convert op | move op => cases op <;> rfl

lemma formName_injective : Function.Injective formName := by
  intro f g h
  have hopt := congrArg formOf h
  rw [formOf_formName, formOf_formName] at hopt
  exact Option.some.inj hopt

lemma formName_ne (f : Form) : formName f ≠ .XXX := by
  intro h
  have hopt := formOf_formName f
  rw [h] at hopt
  cases hopt

/-! ## Fixed bits of forms -/

open Fixed (opcode funct2 funct3 funct6 funct7 funct12)

def formBits : Form → List Fixed
  | .r op => opF3F7 op.code.1 op.code.2.1 op.code.2.2
  | .i op => opF3 op.code.1 op.code.2
  | .shift op => opF3 0b0010011 op.code.1 ++ [funct6 op.code.2]
  | .shiftW op => opF3F7 0b0011011 op.code.1 op.code.2
  | .s op => opF3 0b0100011 op.code
  | .b op => opF3 0b1100011 op.code
  | .u op => [opcode op.code]
  | .jal => [opcode 0b1101111]
  | .amo op double => amoBits (amoWidth double) op.code
  | .lr double => amoBits (amoWidth double) lrCode ++ [Fixed.rs2 0]
  | .system op => fixedBits (systemName op)
  | .flw => opF3 0b0000111 0b010
  | .fsw => opF3 0b0100111 0b010
  | .fused op => [opcode op.code, funct2 singleFmt]
  | .arith op => fpBits op.code
  | .exact op => opF3F7 opFp op.code.2 op.code.1
  | .convert op => fpBits op.code.1 ++ [Fixed.rs2 op.code.2]
  | .move op => opF3F7 opFp op.code.2 op.code.1 ++ [Fixed.rs2 0]

lemma fixedBits_formName (f : Form) : fixedBits (formName f) = formBits f := by
  cases f with
  | jal | flw | fsw => rfl
  | amo op double => cases op <;> cases double <;> rfl
  | lr double => cases double <;> rfl
  | r op | i op | shift op | shiftW op | s op | b op | u op | system op | fused op | arith op
  | exact op | convert op | move op => cases op <;> rfl

section Fill

variable {w : U32} {op : BitVec 7} {f3 : BitVec 3} {f7 : BitVec 7} {bits : List Fixed}

lemma met_opF3 (h : ∀ b ∈ opF3 op f3 ++ bits, b.MetBy w) :
    w.extractLsb' 0 7 = op ∧ w.extractLsb' 12 3 = f3 ∧ ∀ b ∈ bits, b.MetBy w :=
  ⟨h (opcode op) (by simp [opF3]), h (funct3 f3) (by simp [opF3]),
    fun b hb => h b (List.mem_append_right _ hb)⟩

lemma met_opF3F7 (h : ∀ b ∈ opF3F7 op f3 f7 ++ bits, b.MetBy w) :
    w.extractLsb' 0 7 = op ∧ w.extractLsb' 12 3 = f3 ∧ w.extractLsb' 25 7 = f7
      ∧ ∀ b ∈ bits, b.MetBy w :=
  ⟨h (opcode op) (by simp [opF3F7]), h (funct3 f3) (by simp [opF3F7]),
    h (funct7 f7) (by simp [opF3F7]), fun b hb => h b (List.mem_append_right _ hb)⟩

lemma met_fpBits (h : ∀ b ∈ fpBits f7 ++ bits, b.MetBy w) :
    w.extractLsb' 0 7 = opFp ∧ w.extractLsb' 25 7 = f7 ∧ ∀ b ∈ bits, b.MetBy w :=
  ⟨h (opcode opFp) (by simp [fpBits, opFp]), h (funct7 f7) (by simp [fpBits]),
    fun b hb => h b (List.mem_append_right _ hb)⟩

/-- The upper columns of an atomic, of which five bits are fixed. -/
lemma amoFunct7_columns (w : U32) :
    amoFunct7 (w.extractLsb' 27 5) (w.getLsbD 26) (w.getLsbD 25) = w.extractLsb' 25 7 := by
  apply BitVec.eq_of_getElem_eq
  intro i hi
  rw [← BitVec.getLsbD_eq_getElem, amoFunct7, BitVec.getLsbD_append, BitVec.getLsbD_append]
  interval_cases i <;> simp

lemma met_amoBits {f5 : BitVec 5} (h : ∀ b ∈ amoBits f3 f5 ++ bits, b.MetBy w) :
    w.extractLsb' 0 7 = 0b0101111 ∧ w.extractLsb' 12 3 = f3
      ∧ w.extractLsb' 25 7 = amoFunct7 f5 (w.getLsbD 26) (w.getLsbD 25)
      ∧ ∀ b ∈ bits, b.MetBy w := by
  have hf5 : w.extractLsb' 27 5 = f5 := h (Fixed.funct5 f5) (by simp [amoBits])
  refine ⟨h (opcode 0b0101111) (by simp [amoBits]), h (funct3 f3) (by simp [amoBits]), ?_,
    fun b hb => h b (List.mem_append_right _ hb)⟩
  rw [← hf5, amoFunct7_columns]

/-- The words of the environment instructions. -/
lemma word_of_met_system {v : BitVec 12}
    (h : ∀ b ∈ opF3 0b1110011 0 ++ [funct12 v, Fixed.rs1 0, Fixed.rd 0], b.MetBy w) :
    wordI v 0 0 0 0b1110011 = w := by
  obtain ⟨hop, hf3, h⟩ := met_opF3 h
  have himm : immOfI w = v := h (funct12 v) (by simp)
  have hrs1 : rs1Of w = 0 := h (Fixed.rs1 0) (by simp)
  have hrd : rdOf w = 0 := h (Fixed.rd 0) (by simp)
  have hword := wordI_columns w
  rwa [himm, hrs1, hrd, hf3, hop] at hword

lemma word_of_columns (hop : w.extractLsb' 0 7 = op) (hf3 : w.extractLsb' 12 3 = f3)
    (hf7 : w.extractLsb' 25 7 = f7) : word f7 (rs2Of w) (rs1Of w) f3 (rdOf w) op = w := by
  rw [← hop, ← hf3, ← hf7]
  exact (eq_word w).symm

lemma wordI_of_columns (hop : w.extractLsb' 0 7 = op) (hf3 : w.extractLsb' 12 3 = f3) :
    wordI (immOfI w) (rs1Of w) f3 (rdOf w) op = w := by
  rw [← hop, ← hf3]
  exact wordI_columns w

lemma wordS_of_columns (hop : w.extractLsb' 0 7 = op) (hf3 : w.extractLsb' 12 3 = f3) :
    wordS (immOfS w) (rs2Of w) (rs1Of w) f3 op = w := by
  rw [← hop, ← hf3]
  exact wordS_columns w

lemma word_of_met_wholeWord {c : BitVec 32} (h : ∀ b ∈ [Fixed.wholeWord c], b.MetBy w) : c = w := by
  have hword : w.extractLsb' 0 32 = c := h (Fixed.wholeWord c) (by simp)
  exact hword.symm.trans BitVec.extractLsb'_eq_self

/-- **A word that fits a mnemonic is an encoding**: that of the form with the word's operands. -/
theorem encode_fill {f : Form} (h : Fits w (formName f)) : (f.fill w).encode = w := by
  rw [Fits, fixedBits_formName] at h
  rw [← List.append_nil (formBits f)] at h
  cases f with
  | r op =>
      obtain ⟨hop, hf3, hf7, -⟩ := met_opF3F7 h
      exact word_of_columns hop hf3 hf7
  | i op =>
      obtain ⟨hop, hf3, -⟩ := met_opF3 h
      exact wordI_of_columns hop hf3
  | shift op =>
      rw [formBits, List.append_assoc] at h
      obtain ⟨hop, hf3, h⟩ := met_opF3 h
      have hf6 : w.extractLsb' 26 6 = op.code.2 := h (funct6 op.code.2) (by simp)
      have himm : op.code.2 ++ w.extractLsb' 20 6 = immOfI w := by
        rw [← hf6]
        exact extractLsb'_append_extractLsb' w 20 6 6
      change wordI (op.code.2 ++ w.extractLsb' 20 6) (rs1Of w) op.code.1 (rdOf w) 0b0010011 = w
      rw [himm]
      exact wordI_of_columns hop hf3
  | shiftW op =>
      obtain ⟨hop, hf3, hf7, -⟩ := met_opF3F7 h
      have himm : op.code.2 ++ rs2Of w = immOfI w := by
        rw [← hf7]
        exact extractLsb'_append_extractLsb' w 20 5 7
      change wordI (op.code.2 ++ rs2Of w) (rs1Of w) op.code.1 (rdOf w) 0b0011011 = w
      rw [himm]
      exact wordI_of_columns hop hf3
  | s op =>
      obtain ⟨hop, hf3, -⟩ := met_opF3 h
      exact wordS_of_columns hop hf3
  | b op =>
      obtain ⟨hop, hf3, -⟩ := met_opF3 h
      change wordB (halfwordsB w) (rs2Of w) (rs1Of w) op.code 0b1100011 = w
      rw [← hop, ← hf3]
      exact wordB_columns w
  | u op =>
      have hop : w.extractLsb' 0 7 = op.code := h (opcode op.code) (by simp [formBits])
      change wordU (immOfU w) (rdOf w) op.code = w
      rw [← hop]
      exact wordU_columns w
  | jal =>
      have hop : w.extractLsb' 0 7 = 0b1101111 := h (opcode 0b1101111) (by simp [formBits])
      change wordJ (halfwordsJ w) (rdOf w) 0b1101111 = w
      rw [← hop]
      exact wordJ_columns w
  | amo op double =>
      obtain ⟨hop, hf3, hf7, -⟩ := met_amoBits h
      exact word_of_columns hop hf3 hf7
  | lr double =>
      rw [formBits, List.append_assoc] at h
      obtain ⟨hop, hf3, hf7, h⟩ := met_amoBits h
      have hrs2 : w.extractLsb' 20 5 = 0 := h (Fixed.rs2 0) (by simp)
      change word (amoFunct7 lrCode (w.getLsbD 26) (w.getLsbD 25)) 0 (rs1Of w)
        (amoWidth double) (rdOf w) 0b0101111 = w
      rw [← hrs2]
      exact word_of_columns hop hf3 hf7
  | system op =>
      rw [List.append_nil] at h
      cases op with
      | ECALL => exact word_of_met_system h
      | EBREAK => exact word_of_met_system h
      | SRET => exact word_of_met_wholeWord h
      | MRET => exact word_of_met_wholeWord h
  | flw =>
      obtain ⟨hop, hf3, -⟩ := met_opF3 h
      exact wordI_of_columns hop hf3
  | fsw =>
      obtain ⟨hop, hf3, -⟩ := met_opF3 h
      exact wordS_of_columns hop hf3
  | fused op =>
      have hop : w.extractLsb' 0 7 = op.code := h (opcode op.code) (by simp [formBits])
      have hfmt : w.extractLsb' 25 2 = singleFmt := h (funct2 singleFmt) (by simp [formBits])
      have hf7 : rs3Of w ++ singleFmt = w.extractLsb' 25 7 := by
        rw [← hfmt]
        exact extractLsb'_append_extractLsb' w 25 2 5
      change word (rs3Of w ++ singleFmt) (rs2Of w) (rs1Of w) (rmOf w) (rdOf w) op.code = w
      rw [hf7]
      exact word_of_columns hop rfl rfl
  | arith op =>
      obtain ⟨hop, hf7, -⟩ := met_fpBits h
      exact word_of_columns hop rfl hf7
  | exact op =>
      obtain ⟨hop, hf3, hf7, -⟩ := met_opF3F7 h
      exact word_of_columns hop hf3 hf7
  | convert op =>
      rw [formBits, List.append_assoc] at h
      obtain ⟨hop, hf7, h⟩ := met_fpBits h
      have hrs2 : w.extractLsb' 20 5 = op.code.2 := h (Fixed.rs2 op.code.2) (by simp)
      change word op.code.1 op.code.2 (rs1Of w) (rmOf w) (rdOf w) opFp = w
      rw [← hrs2]
      exact word_of_columns hop rfl hf7
  | move op =>
      rw [formBits, List.append_assoc] at h
      obtain ⟨hop, hf3, hf7, h⟩ := met_opF3F7 h
      have hrs2 : w.extractLsb' 20 5 = 0 := h (Fixed.rs2 0) (by simp)
      change word op.code.1 0 (rs1Of w) op.code.2 (rdOf w) opFp = w
      rw [← hrs2]
      exact word_of_columns hop hf3 hf7

end Fill

/-! ## One mnemonic for a word -/

namespace Fixed

def mask (b : Fixed) : U32 := BitFields.mask 32 b.lo b.len
def bits (b : Fixed) : U32 := b.value.setWidth 32 <<< b.lo

lemma MetBy.and_mask {b : Fixed} {w : U32} (h : b.MetBy w) : w &&& b.mask = b.bits := by
  apply BitVec.eq_of_getLsbD_eq
  intro i hi
  have hbit : ∀ k, b.value.getLsbD k = (decide (k < b.len) && w.getLsbD (b.lo + k)) := by
    intro k
    rw [← (h : w.extractLsb' b.lo b.len = b.value), BitVec.getLsbD_extractLsb']
  rw [BitVec.getLsbD_and, mask, getLsbD_mask hi, bits, BitVec.getLsbD_shiftLeft,
    BitVec.getLsbD_setWidth, hbit]
  by_cases hlo : i < b.lo
  · simp [hlo, show ¬ b.lo ≤ i by omega]
  · have hback : b.lo + (i - b.lo) = i := by omega
    have hlt : i - b.lo < b.len ↔ i < b.lo + b.len := by omega
    simp [hlo, hi, hback, hlt, show b.lo ≤ i by omega, show i - b.lo < 32 by omega, Bool.and_comm]

/-- The two fields ask for different values of a bit that they share. -/
def clash (b c : Fixed) : Bool := b.mask &&& c.mask &&& (b.bits ^^^ c.bits) != 0

lemma not_clash {b c : Fixed} {w : U32} (hb : b.MetBy w) (hc : c.MetBy w) : clash b c = false := by
  have hzero : b.mask &&& c.mask &&& (b.bits ^^^ c.bits) = 0 := by
    rw [← hb.and_mask, ← hc.and_mask]
    apply BitVec.eq_of_getLsbD_eq
    intro i _
    simp only [BitVec.getLsbD_and, BitVec.getLsbD_xor]
    cases b.mask.getLsbD i <;> cases c.mask.getLsbD i <;> cases w.getLsbD i <;> simp
  rw [clash, hzero]
  rfl

end Fixed

/-- Any two mnemonics have fields that clash. -/
lemma clashing : (IName.all.filter (· ≠ .XXX)).Pairwise fun n m =>
    ((fixedBits n).any fun b => (fixedBits m).any fun c => Fixed.clash b c) = true := by
  decide +kernel

/-- **No word fits two mnemonics.** -/
theorem fits_unique {w : U32} {n m : IName} (hn : n ≠ .XXX) (hm : m ≠ .XXX) (hfn : Fits w n)
    (hfm : Fits w m) : n = m := by
  have hdisjoint : (IName.all.filter (· ≠ .XXX)).Pairwise fun n m => ¬ (Fits w n ∧ Fits w m) := by
    refine clashing.imp ?_
    rintro n m h ⟨hfn, hfm⟩
    simp only [List.any_eq_true] at h
    obtain ⟨b, hb, c, hc, hclash⟩ := h
    rw [Fixed.not_clash (hfn b hb) (hfm c hc)] at hclash
    cases hclash
  have hmem : ∀ {n : IName}, n ≠ .XXX → n ∈ IName.all.filter (· ≠ .XXX) :=
    fun h => List.mem_filter.mpr ⟨IName.mem_all _, by simpa using h⟩
  have : Std.Symm fun n m => ¬ (Fits w n ∧ Fits w m) := ⟨fun _ _ h => h ∘ And.symm⟩
  by_contra hne
  exact hdisjoint.forall (hmem hn) (hmem hm) hne ⟨hfn, hfm⟩

/-! ## Encodings -/

lemma reads_name {ins : Instruction} {i : Instr} (h : Reads ins i) :
    ins.name = formName i.form := by
  cases i <;> exact h.1

lemma readsFloat_name {ins : Instruction} {i : FInstr} (h : ReadsFloat ins i) :
    ins.name = formName i.form := by
  cases i <;> exact h.1

/-- Every instruction can be reported. -/
lemma exists_readsFloat (i : FInstr) : ∃ ins, ReadsFloat ins i := by
  cases i with
  | flw rd rs1 imm =>
      exact ⟨⟨.I, _, { Fields.zero with rd := rd, rs1 := rs1, imm := imm.signExtend 32 }, ""⟩,
        rfl, rfl, rfl, rfl⟩
  | fsw rs1 rs2 imm =>
      exact ⟨⟨.S, _, { Fields.zero with rs1 := rs1, rs2 := rs2, imm := imm.signExtend 32 }, ""⟩,
        rfl, rfl, rfl, rfl⟩
  | fused op rm rd rs1 rs2 rs3 =>
      exact ⟨⟨.R4, _, { Fields.zero with rd := rd, rs1 := rs1, rs2 := rs2, rs3 := rs3 }, ""⟩,
        rfl, rfl, rfl, rfl, rfl⟩
  | arith op rm rd rs1 rs2 | exact op rd rs1 rs2 =>
      exact ⟨⟨.R, _, { Fields.zero with rd := rd, rs1 := rs1, rs2 := rs2 }, ""⟩, rfl, rfl, rfl, rfl⟩
  | convert op rm rd rs1 | move op rd rs1 =>
      exact ⟨⟨.R, _, { Fields.zero with rd := rd, rs1 := rs1 }, ""⟩, rfl, rfl, rfl⟩

/-- **An encoding fits the mnemonic of its form.** -/
lemma fits_encode (x : Standard) : Fits x.encode (formName x.form) := by
  cases x with
  | integer i =>
      obtain ⟨ins, -, hreads⟩ := VEmu.decodeOf_encode i
      have hfits := encode_fits i hreads
      rwa [reads_name hreads] at hfits
  | float i =>
      obtain ⟨ins, hreads⟩ := exists_readsFloat i
      have hfits := encode_float_fits i hreads
      rwa [readsFloat_name hreads] at hfits

/-- Different instructions have different encodings. -/
lemma encode_injective : Function.Injective Standard.encode := by
  intro x y h
  refine eq_of_form_eq (formName_injective ?_) h
  have hy := fits_encode y
  rw [← h] at hy
  exact fits_unique (formName_ne _) (formName_ne _) (fits_encode x) hy

/-- **The words with the fixed bits of a mnemonic are the encodings**, each of one instruction. -/
theorem standard_iff (w : U32) :
    (∃ n, n ≠ .XXX ∧ Fits w n) ↔ ∃! x : Standard, x.encode = w := by
  constructor
  · rintro ⟨n, hn, hfits⟩
    obtain ⟨f, rfl⟩ := formName_formOf hn
    have hword := encode_fill hfits
    exact ⟨f.fill w, hword, fun y hy => encode_injective (hy.trans hword.symm)⟩
  · rintro ⟨x, rfl, -⟩
    exact ⟨formName x.form, formName_ne _, fits_encode x⟩

/-! ## What is accepted -/

/-- The encoding of a single-precision instruction with a printed name is decoded, if not to all of
its operands. -/
lemma decodes_float (i : FInstr) (h : unprinted (formName i.form) = false) :
    ∃ ins, decodeOf i.encode = .ok ins ∧ ins.name = formName i.form := by
  cases i with
  | flw rd rs1 imm =>
      obtain ⟨ins, hins, hreads⟩ := decode_flw rd rs1 imm
      exact ⟨ins, hins, hreads.1⟩
  | fsw rs1 rs2 imm =>
      obtain ⟨ins, hins, hreads⟩ := decode_fsw rs1 rs2 imm
      exact ⟨ins, hins, hreads.1⟩
  | fused op rm rd rs1 rs2 rs3 =>
      have hop : op ≠ .FNMADDS := by
        rintro rfl
        cases h
      obtain ⟨ins, hins, hname, -⟩ := decode_fused rd rs1 rs2 rs3 hop rm
      exact ⟨ins, hins, hname⟩
  | arith op rm rd rs1 rs2 =>
      obtain ⟨ins, hins, hreads⟩ := decode_arith rd rs1 rs2 op rm
      exact ⟨ins, hins, hreads.1⟩
  | exact op rd rs1 rs2 =>
      obtain ⟨ins, hins, hreads⟩ := decode_exact rd rs1 rs2 op
      exact ⟨ins, hins, hreads.1⟩
  | convert op rm rd rs1 =>
      have hop : op ≠ .FCVTSL := by
        rintro rfl
        cases h
      obtain ⟨ins, hins, hreads⟩ := (decode_convert_iff rd rs1 op rm).mpr hop
      exact ⟨ins, hins, hreads.1⟩
  | move op rd rs1 =>
      obtain ⟨ins, hins, hreads⟩ := decode_move rd rs1 op
      exact ⟨ins, hins, hreads.1⟩

/-- The decoder reports of an encoding the mnemonic of its form. -/
lemma decodes_encode (x : Standard) (h : unprinted (formName x.form) = false) :
    ∃ ins, decodeOf x.encode = .ok ins ∧ ins.name = formName x.form := by
  cases x with
  | integer i =>
      obtain ⟨ins, hins, hreads⟩ := VEmu.decodeOf_encode i
      exact ⟨ins, hins, reads_name hreads⟩
  | float i => exact decodes_float i h

/-- A word of a mnemonic without a printed name is not decoded. -/
lemma printed_of_decodeOf {w : U32} {ins : Instruction} (h : decodeOf w = .ok ins) {n : IName}
    (hfits : Fits w n) : unprinted n = false := by
  by_contra hun
  simp only [unprinted, Bool.not_eq_false, Bool.or_eq_true, decide_eq_true_eq] at hun
  have hthrow : Unnamed w := by
    rcases hun with rfl | rfl
    · exact .inl hfits
    · exact .inr hfits
  cases h.symm.trans (decodeOf_unnamed hthrow)

/-- **The words that the decoder accepts**, whatever it was asked before, are the encodings of the
instructions with a printed name, each of one instruction, and the overaccepted words; and of an
encoding it reports the mnemonic. -/
theorem accepts_iff (history : List U32) (w : U32) :
    ((∃ ins, ((InstructionDecoder.init.after history).decode w).1 = .ok ins ∧ ins.name ≠ .XXX)
        ↔ Overaccepted w ∨ ∃! x : Standard, x.encode = w ∧ unprinted (formName x.form) = false)
      ∧ ∀ ins, ((InstructionDecoder.init.after history).decode w).1 = .ok ins →
          ∀ x : Standard, x.encode = w → ins.name = formName x.form := by
  rw [InstructionDecoder.decode_after]
  refine ⟨⟨?_, ?_⟩, ?_⟩
  · rintro ⟨ins, hins, hne⟩
    by_cases hover : Overaccepted w
    · exact .inl hover
    · have hfits := fits_of_decodeOf hover hins hne
      obtain ⟨f, hf⟩ := formName_formOf hne
      have hword := encode_fill (hf.symm ▸ hfits)
      have hx := fits_encode (f.fill w)
      rw [hword] at hx
      exact .inr ⟨f.fill w, ⟨hword, printed_of_decodeOf hins hx⟩,
        fun y hy => encode_injective (hy.1.trans hword.symm)⟩
  · rintro (hover | ⟨x, ⟨rfl, hx⟩, -⟩)
    · obtain ⟨ins, hins, hne, -⟩ := misread_of_overaccepted hover
      exact ⟨ins, hins, hne⟩
    · obtain ⟨ins, hins, hname⟩ := decodes_encode x hx
      exact ⟨ins, hins, hname ▸ formName_ne _⟩
  · rintro ins hins x rfl
    obtain ⟨ins', hins', hname⟩ := decodes_encode x (printed_of_decodeOf hins (fits_encode x))
    obtain rfl := Except.ok.inj (hins.symm.trans hins')
    exact hname

end Vemu
