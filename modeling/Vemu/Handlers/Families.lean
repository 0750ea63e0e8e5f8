import Vemu.Run

/-!
# The families of handlers

A property of handlers that every family has, with any operation in it, is a property of every
handler that belongs to a family (`Families.handler`).  The three that belong to none are the
environment call and the trap returns.  Without the two families that write control registers, it
is a property of the other handlers (`CommonFamilies.handler`), and without the branches and the
jumps of the rest (`StraightFamilies.handler`).
-/

namespace Vemu

namespace VEmu

/-- Every family of handlers has the property. -/
structure Families (P : Handler → Prop) : Prop where
  regReg : ∀ f, P (regReg f)
  regImm : ∀ f, P (regImm f)
  shiftImm : ∀ mask f, P (shiftImm mask f)
  shiftReg : ∀ mask f, P (shiftReg mask f)
  branch : ∀ taken, P (branch taken)
  dividing : ∀ f, P (dividing f)
  loadUnsigned : ∀ sz, P (loadUnsigned sz)
  loadSigned : ∀ bits sz, P (loadSigned bits (VEmu.loadUnsigned sz))
  storeData : ∀ sz f, P (storeData sz f)
  loadReserved : ∀ sz, P (loadReserved sz)
  storeConditional : ∀ sz, P (storeConditional sz)
  amo : ∀ sz old f, P (amo sz old f)
  csrModify : ∀ operand f, P (csrModify operand f)
  upper : P LUI ∧ P AUIPC
  jump : P JAL ∧ P JALR
  /-- The handlers that only report something. -/
  report : ∀ h r, (∀ s, h s = .ok (r, s)) → P h

/-- The families that write neither control registers nor the program counter have the property. -/
structure StraightFamilies (P : Handler → Prop) : Prop where
  regReg : ∀ f, P (regReg f)
  regImm : ∀ f, P (regImm f)
  shiftImm : ∀ mask f, P (shiftImm mask f)
  shiftReg : ∀ mask f, P (shiftReg mask f)
  loadUnsigned : ∀ sz, P (loadUnsigned sz)
  loadSigned : ∀ bits sz, P (loadSigned bits (VEmu.loadUnsigned sz))
  storeData : ∀ sz f, P (storeData sz f)
  loadReserved : ∀ sz, P (loadReserved sz)
  storeConditional : ∀ sz, P (storeConditional sz)
  amo : ∀ sz old f, P (amo sz old f)
  upper : P LUI ∧ P AUIPC
  /-- The handlers that only report something. -/
  report : ∀ h r, (∀ s, h s = .ok (r, s)) → P h

/-- The families that do not write control registers have the property. -/
structure CommonFamilies (P : Handler → Prop) : Prop extends StraightFamilies P where
  branch : ∀ taken, P (branch taken)
  jump : P JAL ∧ P JALR

/-- The branches and the jumps. -/
def isJump : IName → Bool
  | .BEQ | .BNE | .BLT | .BGE | .BLTU | .BGEU | .JAL | .JALR => true
  | _ => false

/-- The divisions, of which a zero divisor sets a flag. -/
def isDividing : IName → Bool
  | .DIV | .DIVU | .DIVW | .DIVUW => true
  | _ => false

/-- The CSR instructions. -/
def isCsrModify : IName → Bool
  | .CSRRW | .CSRRS | .CSRRC | .CSRRWI | .CSRRSI | .CSRRCI => true
  | _ => false

/-- The environment call and the trap returns. -/
def isEnvironment : IName → Bool
  | .ECALL | .MRET | .SRET => true
  | _ => false

/-- **What holds of the straight families** holds of every handler but those that write control
registers or the program counter. -/
theorem StraightFamilies.handler {P : Handler → Prop} (hP : StraightFamilies P) (host : Host)
    {n : IName} (hjump : isJump n = false) (hdiv : isDividing n = false)
    (hcsr : isCsrModify n = false) (henv : isEnvironment n = false) : P (handler host n) := by
  cases n <;> simp only [VEmu.handler]
  case ECALL | MRET | SRET => cases henv
  case JAL | JALR | BEQ | BNE | BLT | BGE | BLTU | BGEU => cases hjump
  case LUI => exact hP.upper.1
  case AUIPC => exact hP.upper.2
  case LB | LH | LW =>
    simp only [LB, LH, LW]
    exact hP.loadSigned _ _
  case LBU | LHU | LWU | LD =>
    simp only [LBU, LHU, LWU, LD]
    exact hP.loadUnsigned _
  case SB | SH | SW | SD =>
    simp only [SB, SH, SW, SD]
    exact hP.storeData _ _
  case ADDI | ADDIW | SLTI | SLTIU | XORI | ORI | ANDI =>
    simp only [ADDI, ADDIW, SLTI, SLTIU, XORI, ORI, ANDI]
    exact hP.regImm _
  case SLLI | SRLI | SRAI | SLLIW | SRLIW | SRAIW =>
    simp only [SLLI, SRLI, SRAI, SLLIW, SRLIW, SRAIW]
    exact hP.shiftImm _ _
  case SLL | SRL | SRA | SLLW | SRLW | SRAW =>
    simp only [SLL, SRL, SRA, SLLW, SRLW, SRAW]
    exact hP.shiftReg _ _
  case DIV | DIVU | DIVW | DIVUW => cases hdiv
  case LRW | LRD =>
    simp only [LRW, LRD]
    exact hP.loadReserved _
  case SCW | SCD =>
    simp only [SCW, SCD]
    exact hP.storeConditional _
  case CSRRW | CSRRS | CSRRC | CSRRWI | CSRRSI | CSRRCI => cases hcsr
  case ADD | SUB | SLT | SLTU | XOR | OR | AND | ADDW | SUBW =>
    simp only [ADD, SUB, SLT, SLTU, XOR, OR, AND, ADDW, SUBW]
    exact hP.regReg _
  case MUL | MULW | MULH | MULHU | MULHSU | REM | REMU | REMW | REMUW =>
    simp only [MUL, MULW, MULH, MULHU, MULHSU, REM, REMU, REMW, REMUW]
    exact hP.regReg _
  case AMOSWAPW => exact hP.amo _ _ _
  case AMOADDW | AMOXORW | AMOANDW | AMOORW | AMOMINW | AMOMAXW | AMOMINUW | AMOMAXUW =>
    simp only [AMOADDW, AMOXORW, AMOANDW, AMOORW, AMOMINW, AMOMAXW, AMOMINUW, AMOMAXUW, amoW]
    exact hP.amo _ _ _
  case AMOSWAPD | AMOADDD | AMOXORD | AMOANDD | AMOORD | AMOMIND | AMOMAXD | AMOMINUD | AMOMAXUD =>
    simp only [AMOSWAPD, AMOADDD, AMOXORD, AMOANDD, AMOORD, AMOMIND, AMOMAXD, AMOMINUD, AMOMAXUD,
      amoD]
    exact hP.amo _ _ _
  case FENCE | FENCEI => exact hP.report _ .NormalExecutionReturn fun _ => rfl
  case EBREAK => exact hP.report _ .InstructionAddressBreakpoint fun _ => rfl
  -- what is left is F and XXX
  all_goals exact hP.report _ .IllegalInstruction fun _ => rfl

/-- **What holds of the common families** holds of every handler but those that write control
registers. -/
theorem CommonFamilies.handler {P : Handler → Prop} (hP : CommonFamilies P) (host : Host) {n : IName}
    (hdiv : isDividing n = false) (hcsr : isCsrModify n = false) (henv : isEnvironment n = false) :
    P (handler host n) := by
  cases hjump : isJump n with
  | true =>
      cases n <;> simp only [isJump, reduceCtorEq] at hjump
      case JAL => exact hP.jump.1
      case JALR => exact hP.jump.2
      all_goals
        simp only [VEmu.handler, BEQ, BNE, BLT, BGE, BLTU, BGEU]
        exact hP.branch _
  | false => exact hP.toStraightFamilies.handler host hjump hdiv hcsr henv

lemma exists_dividing (host : Host) {n : IName} (h : isDividing n = true) :
    ∃ f, VEmu.handler host n = dividing f := by
  cases n <;> simp only [isDividing, reduceCtorEq] at h
  all_goals
    simp only [VEmu.handler, DIV, DIVU, DIVW, DIVUW]
    exact ⟨_, rfl⟩

lemma exists_csrModify (host : Host) {n : IName} (h : isCsrModify n = true) :
    ∃ operand f, VEmu.handler host n = csrModify operand f := by
  cases n <;> simp only [isCsrModify, reduceCtorEq] at h
  all_goals
    simp only [VEmu.handler, CSRRW, CSRRS, CSRRC, CSRRWI, CSRRSI, CSRRCI]
    exact ⟨_, _, rfl⟩

lemma Families.mono {P Q : Handler → Prop} (hP : Families P) (h : ∀ f, P f → Q f) : Families Q where
  regReg := fun _ => h _ (hP.regReg _)
  regImm := fun _ => h _ (hP.regImm _)
  shiftImm := fun _ _ => h _ (hP.shiftImm _ _)
  shiftReg := fun _ _ => h _ (hP.shiftReg _ _)
  branch := fun _ => h _ (hP.branch _)
  dividing := fun _ => h _ (hP.dividing _)
  loadUnsigned := fun _ => h _ (hP.loadUnsigned _)
  loadSigned := fun _ _ => h _ (hP.loadSigned _ _)
  storeData := fun _ _ => h _ (hP.storeData _ _)
  loadReserved := fun _ => h _ (hP.loadReserved _)
  storeConditional := fun _ => h _ (hP.storeConditional _)
  amo := fun _ _ _ => h _ (hP.amo _ _ _)
  csrModify := fun _ _ => h _ (hP.csrModify _ _)
  upper := hP.upper.imp (h _) (h _)
  jump := hP.jump.imp (h _) (h _)
  report := fun _ _ hh => h _ (hP.report _ _ hh)

lemma Families.common {P : Handler → Prop} (hP : Families P) : CommonFamilies P where
  regReg := hP.regReg
  regImm := hP.regImm
  shiftImm := hP.shiftImm
  shiftReg := hP.shiftReg
  branch := hP.branch
  loadUnsigned := hP.loadUnsigned
  loadSigned := hP.loadSigned
  storeData := hP.storeData
  loadReserved := hP.loadReserved
  storeConditional := hP.storeConditional
  amo := hP.amo
  upper := hP.upper
  jump := hP.jump
  report := hP.report

/-- **What holds of every family holds of every handler but three.** -/
theorem Families.handler {P : Handler → Prop} (hP : Families P) (host : Host) {n : IName}
    (hecall : n ≠ .ECALL) (hmret : n ≠ .MRET) (hsret : n ≠ .SRET) : P (handler host n) := by
  cases hdiv : isDividing n with
  | true =>
      obtain ⟨f, hf⟩ := exists_dividing host hdiv
      exact hf ▸ hP.dividing f
  | false =>
      cases hcsr : isCsrModify n with
      | true =>
          obtain ⟨operand, f, hf⟩ := exists_csrModify host hcsr
          exact hf ▸ hP.csrModify operand f
      | false =>
          refine hP.common.handler host hdiv hcsr ?_
          cases n <;> first | rfl | contradiction

/-- Where a property of the CSR instructions depends on what their operand is, it is asked for the two
operands that there are. -/
theorem CommonFamilies.handler_of {P : Handler → Prop} (hP : CommonFamilies P)
    (hdividing : ∀ f, P (dividing f)) (hreg : ∀ f, P (csrModify (fun s => s.loadReg s.rs1) f))
    (huimm : ∀ f, P (csrModify uimm f)) (hmret : P MRET) (hsret : P SRET) (host : Host) {n : IName}
    (hecall : n = .ECALL → P (VEmu.handler host .ECALL)) : P (VEmu.handler host n) := by
  cases hdiv : isDividing n with
  | true =>
      obtain ⟨f, hf⟩ := exists_dividing host hdiv
      exact hf ▸ hdividing f
  | false =>
    cases hcsr : isCsrModify n with
    | true =>
        cases n <;> simp only [isCsrModify, Bool.false_eq_true] at hcsr
        case CSRRW => exact (hreg _ : P CSRRW)
        case CSRRS => exact (hreg _ : P CSRRS)
        case CSRRC => exact (hreg _ : P CSRRC)
        case CSRRWI => exact (huimm _ : P CSRRWI)
        case CSRRSI => exact (huimm _ : P CSRRSI)
        case CSRRCI => exact (huimm _ : P CSRRCI)
    | false =>
      cases henv : isEnvironment n with
      | true =>
          cases n <;> simp only [isEnvironment, Bool.false_eq_true] at henv
          case ECALL => exact hecall rfl
          case MRET => exact hmret
          case SRET => exact hsret
      | false => exact hP.handler host hdiv hcsr henv

end VEmu

end Vemu
