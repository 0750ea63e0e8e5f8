import Vemu.Handlers.Untouched
import Vemu.Trap.Entry
import Vemu.Lib.MaskedView

/-!
# The laws of the control registers

A CSR instruction reads a register and writes it: as it is told, with some bits set, or with some
bits cleared (`CsrLaws`).  The supervisor's interrupt enables are a view of the machine's under the
mask of the delegated interrupts (`SieLaws`).

In both places where bits are cleared the source has the logical negation `!` instead of the
bitwise `~`.  So the laws hold exactly where the two leave the same bits: **`csrLaws_iff`** and
**`sieLaws_iff`**.

The integer instructions should leave the control registers alone.  A quotient by zero does not:
it raises a flag that belongs to the float instructions (**`csrs_unchanged_iff`**).
-/

namespace Vemu

open MaskedView

/-! ## Clearing with a logical negation -/

namespace Csrs

/-- The logical negation clears the same bits of `old` as the bitwise one. -/
def ClearsExactly (old src : U64) : Prop := if src = 0 then old < 2 else old &&& ~~~src = 0

instance (old src : U64) : Decidable (ClearsExactly old src) := by
  unfold ClearsExactly
  infer_instance

lemma and_one_eq_self_iff (x : U64) : x &&& 1 = x ↔ x < 2 := by
  have hmod : (x &&& 1).toNat = x.toNat % 2 := Nat.and_two_pow_sub_one_eq_mod x.toNat 1
  rw [← BitVec.toNat_inj, hmod, BitVec.lt_def]
  exact Nat.mod_eq_iff_lt (by decide)

lemma and_logicalNot_eq_iff {old src : U64} :
    old &&& logicalNot src = old &&& ~~~src ↔ ClearsExactly old src := by
  by_cases h : src = 0
  · rw [ClearsExactly, logicalNot, if_pos h, if_pos h, h, and_not_zero]
    exact and_one_eq_self_iff old
  · rw [ClearsExactly, logicalNot, if_neg h, if_neg h, and_zero]
    exact eq_comm

@[simp] lemma set_reg_self (c : Csrs) (addr : CsrAddr) : c.set addr (c.reg addr) = c := by
  simp [set]

end Csrs

/-! ## The CSR instructions -/

namespace VEmu

/-- What a CSR instruction does to the register. -/
inductive CsrOp
  | write | set | clear
  deriving DecidableEq

/-- Where a CSR instruction has its operand from. -/
inductive CsrSource
  | register | immediate
  deriving DecidableEq

def csrName : CsrOp → CsrSource → IName
  | .write, .register => .CSRRW
  | .set, .register => .CSRRS
  | .clear, .register => .CSRRC
  | .write, .immediate => .CSRRWI
  | .set, .immediate => .CSRRSI
  | .clear, .immediate => .CSRRCI

/-- The value that the register should get. -/
def CsrOp.result : CsrOp → U64 → U64 → U64
  | .write, _, src => src
  | .set, old, src => old ||| src
  | .clear, old, src => old &&& ~~~src

/-- The operand: the source register, or the five bits of the immediate. -/
def CsrSource.operand (s : VEmu) : CsrSource → U64
  | .register => s.loadReg s.rs1
  | .immediate => s.rs1.setWidth 64

/-- The register is modified and its old value goes to `rd`. -/
structure ModifiesCsr (op : CsrOp) (src : CsrSource) (s s' : VEmu) : Prop where
  rd : ∀ r, s'.loadReg r = if r = s.rd ∧ r ≠ 0 then s.csrs.reg s.csrAddr else s.loadReg r
  csr : s'.csrs.reg s.csrAddr = op.result (s.csrs.reg s.csrAddr) (src.operand s)
  others : ∀ a, a ≠ s.csrAddr → s'.csrs.reg a = s.csrs.reg a

/-- **The laws** of a CSR instruction in a state. -/
structure CsrLaws (host : Host) (op : CsrOp) (src : CsrSource) (s : VEmu) : Prop where
  modifies : ∃ s', handler host (csrName op src) s = .ok (.NormalExecutionReturn, s')
    ∧ ModifiesCsr op src s s'
  /-- Setting and clearing no bits leaves every register unchanged. -/
  noBits : op ≠ .write → src.operand s = 0 →
    ∃ s', handler host (csrName op src) s = .ok (.NormalExecutionReturn, s') ∧ s'.csrs = s.csrs
  /-- After bits were set, clearing the same bits clears exactly these. -/
  afterSet : op = .clear → ∀ src₀ s₀ s₁,
    handler host (csrName .set src₀) s₀ = .ok (.NormalExecutionReturn, s₁) → s₁.csrs = s.csrs →
    s₀.csrAddr = s.csrAddr → src₀.operand s₀ = src.operand s →
    ∃ s', handler host (csrName op src) s = .ok (.NormalExecutionReturn, s')
      ∧ s'.csrs.reg s.csrAddr = s₀.csrs.reg s.csrAddr &&& ~~~src.operand s

variable {host : Host} {op : CsrOp} {src : CsrSource} {s : VEmu}

/-- The value that the register gets. -/
def CsrOp.computed : CsrOp → U64 → U64 → U64
  | .write, _, src => src
  | .set, old, src => old ||| src
  | .clear, old, src => old &&& Csrs.logicalNot src

lemma handler_csrName (host : Host) (op : CsrOp) (src : CsrSource) :
    handler host (csrName op src) = csrModify (fun s => src.operand s) op.computed := by
  cases op <;> cases src <;> rfl

/-- The state after a CSR instruction on a register other than the view. -/
lemma handler_csr (h : s.csrAddr ≠ sie) :
    handler host (csrName op src) s = .ok (.NormalExecutionReturn,
      { s with csrs := s.csrs.set s.csrAddr (op.computed (s.csrs.reg s.csrAddr) (src.operand s))
               iregs := s.iregs.storeReg s.rd (s.csrs.reg s.csrAddr) }) := by
  rw [handler_csrName, csrModify, Csrs.storeCsr_of_ne h, Csrs.loadCsr_of_ne h]
  rfl

lemma computed_eq_result_iff {old x : U64} :
    op.computed old x = op.result old x ↔ (op = .clear → Csrs.ClearsExactly old x) := by
  cases op with
  | write => simp [CsrOp.computed, CsrOp.result]
  | set => simp [CsrOp.computed, CsrOp.result]
  | clear => simpa [CsrOp.computed, CsrOp.result] using Csrs.and_logicalNot_eq_iff

/-- The register that is read back is the one that was written, and register zero reads zero. -/
lemma loadReg_iregs_storeReg (c : Csrs) (rd r : Reg) (v : U64) :
    ({ s with csrs := c, iregs := s.iregs.storeReg rd v }).loadReg r
      = if r = rd ∧ r ≠ 0 then v else s.loadReg r := by
  rw [loadReg, RegFile.loadReg, RegFile.data_storeReg, loadReg, RegFile.loadReg]
  by_cases hrd : rd = 0
  · rw [if_pos hrd, if_neg]
    rintro ⟨rfl, hr⟩
    exact hr hrd
  · rw [if_neg hrd, Function.update_apply]
    by_cases hr : r = rd
    · rw [if_pos hr, if_pos ⟨hr, hr ▸ hrd⟩]
    · rw [if_neg hr, if_neg fun h => hr h.1]

/-- **The laws of the CSR instructions** hold exactly where the logical negation clears the bits
of the mask. -/
theorem csrLaws_iff (host : Host) (op : CsrOp) (src : CsrSource) (s : VEmu) (h : s.csrAddr ≠ sie) :
    CsrLaws host op src s
      ↔ (op = .clear → Csrs.ClearsExactly (s.csrs.reg s.csrAddr) (src.operand s)) := by
  rw [← computed_eq_result_iff]
  constructor
  · rintro ⟨⟨s', hs', hmod⟩, -, -⟩
    obtain rfl := (Prod.mk.inj (Except.ok.inj ((handler_csr h).symm.trans hs'))).2
    exact (Csrs.reg_set_self ..).symm.trans hmod.csr
  · intro hexact
    refine ⟨⟨_, handler_csr h, ?_, ?_, ?_⟩, ?_, ?_⟩
    · exact fun r => loadReg_iregs_storeReg ..
    · exact (Csrs.reg_set_self ..).trans hexact
    · exact fun a ha => Csrs.reg_set_of_ne ha
    · intro hop hsrc
      have hsame : op.computed (s.csrs.reg s.csrAddr) (src.operand s) = s.csrs.reg s.csrAddr := by
        rw [hexact, hsrc]
        cases op with
        | write => exact absurd rfl hop
        | set => simp [CsrOp.result]
        | clear => exact and_not_zero _
      refine ⟨_, handler_csr h, ?_⟩
      rw [hsame]
      exact Csrs.set_reg_self ..
    · rintro rfl src₀ s₀ s₁ hs₁ hcsrs haddr hsrc
      obtain rfl := (Prod.mk.inj (Except.ok.inj ((handler_csr (haddr ▸ h)).symm.trans hs₁))).2
      have hold : s.csrs.reg s.csrAddr = s₀.csrs.reg s.csrAddr ||| src.operand s := by
        rw [← hcsrs, haddr, Csrs.reg_set_self, ← hsrc]
        rfl
      refine ⟨_, handler_csr h, ?_⟩
      rw [Csrs.reg_set_self, hexact, CsrOp.result, hold, or_mask_and_not]

/-- A hart at `csrrc x2, mtvec, x1`, with the given value in every control register. -/
def clearingHart (old x1 : U64) : VEmu :=
  { userHart 0 0 with
    csrs := ⟨fun _ => old⟩
    iregs := RegFile.new.storeReg 1 x1
    currInstr := ⟨.I, .CSRRC, { Fields.zero with rd := 2, rs1 := 1, imm := 0x305 }, ""⟩ }

/-- Clearing all the bits that are set. -/
theorem csrLaws_clear_all : CsrLaws (.bare .emu) .clear .register (clearingHart 0x10 0x10) :=
  (csrLaws_iff _ _ _ _ (by decide)).mpr fun _ => by decide

/-- Clearing one bit of two clears both. -/
theorem not_csrLaws_clear_one :
    (clearingHart 0x30 0x10).csrAddr ≠ sie
      ∧ ¬ CsrLaws (.bare .emu) .clear .register (clearingHart 0x30 0x10) := by
  refine ⟨by decide, ?_⟩
  rintro ⟨⟨s', hs', hmod⟩, -, -⟩
  have hcsr : s'.csrs.reg (clearingHart 0x30 0x10).csrAddr = 0 := by
    obtain rfl := (Prod.mk.inj (Except.ok.inj ((handler_csr (by decide)).symm.trans hs'))).2
    decide
  exact absurd (hcsr.symm.trans hmod.csr) (by decide)

end VEmu

/-! ## The supervisor's interrupt enables -/

namespace Csrs

variable {c : Csrs} {v v' : U64}

/-- **The laws** of the view of `mie` under the mask `mideleg`, for a store of `v`. -/
structure SieLaws (c : Csrs) (v : U64) : Prop where
  read : (c.storeCsr sie v).loadCsr sie = v &&& c.reg mideleg
  stored : (c.storeCsr sie v).reg mie = replace (c.reg mideleg) (c.reg mie) v
  others : ∀ a, a ≠ mie → (c.storeCsr sie v).reg a = c.reg a
  /-- Storing back what was loaded changes nothing. -/
  restored : c.storeCsr sie (c.loadCsr sie) = c
  /-- Of two stores the last one counts. -/
  last : ∀ v', (c.storeCsr sie v).storeCsr sie v' = c.storeCsr sie v'

/-- No interrupt is enabled that is not delegated, or none is delegated and all that is enabled is
the one of bit zero. -/
def EnablesDelegated (c : Csrs) : Prop :=
  c.reg mie &&& ~~~c.reg mideleg = 0 ∨ c.reg mideleg = 0 ∧ c.reg mie = 1

lemma loadCsr_sie : c.loadCsr sie = c.reg mie &&& c.reg mideleg := rfl

lemma storeCsr_sie :
    c.storeCsr sie v
      = c.set mie ((c.reg mie &&& logicalNot (c.reg mideleg)) ||| (v &&& c.reg mideleg)) := by
  rw [storeCsr, if_pos rfl]
  dsimp only
  rw [reg_set_self, reg_set_of_ne (by decide), set_set]

/-- Under the condition a store to the view replaces the bits under the mask. -/
lemma storeCsr_sie_of_enables (h : c.EnablesDelegated) :
    c.storeCsr sie v = c.set mie (replace (c.reg mideleg) (c.reg mie) v) := by
  rw [storeCsr_sie, replace]
  congr 2
  rw [and_logicalNot_eq_iff, ClearsExactly]
  rcases h with h | ⟨hdeleg, hmie⟩
  · by_cases hdeleg : c.reg mideleg = 0
    · rw [hdeleg, and_not_zero] at h
      rw [if_pos hdeleg, h]
      decide
    · rwa [if_neg hdeleg]
  · rw [if_pos hdeleg, hmie]
    decide

/-- Two stores to the view, whatever is enabled: what the first one set is cleared again. -/
lemma storeCsr_sie_storeCsr_sie :
    (c.storeCsr sie v).storeCsr sie v' = c.storeCsr sie v' := by
  rw [storeCsr_sie, storeCsr_sie, reg_set_self, reg_set_of_ne (by decide), set_set, storeCsr_sie,
    logicalNot]
  by_cases h : c.reg mideleg = 0
  · rw [if_pos h, h, and_zero, or_zero, BitVec.and_assoc, BitVec.and_self]
  · rw [if_neg h, and_zero, and_zero]

/-- **The view of the interrupt enables** obeys its laws exactly where the machine enables
nothing for itself. -/
theorem sieLaws_iff (c : Csrs) (v : U64) : SieLaws c v ↔ c.EnablesDelegated := by
  constructor
  · intro h
    have hstored := h.stored
    rw [storeCsr_sie, reg_set_self, logicalNot] at hstored
    by_cases hdeleg : c.reg mideleg = 0
    · rw [if_pos hdeleg, hdeleg, replace, and_not_zero] at hstored
      rw [and_zero, or_zero, or_zero, and_one_eq_self_iff] at hstored
      have hmie : c.reg mie = 0 ∨ c.reg mie = 1 := by bv_omega
      rw [EnablesDelegated, hdeleg, and_not_zero]
      exact hmie.imp_right fun h => ⟨rfl, h⟩
    · rw [if_neg hdeleg, and_zero, zero_or] at hstored
      exact .inl ((and_mask_eq_replace_iff ..).mp hstored)
  · intro h
    have hdeleg : ∀ x, (c.set mie x).reg mideleg = c.reg mideleg := fun x => reg_set_of_ne (by decide)
    refine ⟨?_, ?_, ?_, ?_, ?_⟩
    · rw [storeCsr_sie_of_enables h, loadCsr_sie, reg_set_self, hdeleg, replace_and_mask]
    · rw [storeCsr_sie_of_enables h, reg_set_self]
    · intro a ha
      rw [storeCsr_sie_of_enables h, reg_set_of_ne ha]
    · rw [storeCsr_sie_of_enables h, loadCsr_sie, replace_and_self, set_reg_self]
    · exact fun v' => storeCsr_sie_storeCsr_sie

/-- A machine-level interrupt stays enabled only until the supervisor writes its view. -/
theorem not_sieLaws : ¬ SieLaws ⟨fun a => if a = mie then 0x800 else 0x200⟩ 0 := by
  intro h
  exact absurd h.stored (by decide)

end Csrs

/-! ## The other instructions -/

namespace VEmu

variable {host : Host} {n : IName} {s s' : VEmu} {e : ReturnException}

/-- The instructions of RV64I, M and A that are neither CSR instructions, environment calls nor
trap returns. -/
def isInteger : IName → Bool
  | .LB | .LH | .LW | .LBU | .LHU | .LD | .LWU | .ADDI | .ADDIW | .SLTI | .SLTIU | .XORI | .ORI
  | .ANDI | .SLLI | .SRLI | .SRAI | .SLLIW | .SRLIW | .SRAIW | .FENCE | .FENCEI
  | .BEQ | .BNE | .BLT | .BGE | .BLTU | .BGEU | .SB | .SH | .SW | .SD
  | .ADD | .ADDW | .SUB | .SUBW | .SLL | .SLLW | .SLT | .SLTU | .XOR | .SRL | .SRLW | .SRA
  | .SRAW | .OR | .AND | .JAL | .JALR | .LUI | .AUIPC
  | .MUL | .MULH | .MULHSU | .MULHU | .DIV | .DIVU | .REM | .REMU
  | .MULW | .DIVW | .DIVUW | .REMW | .REMUW
  | .LRW | .SCW | .AMOSWAPW | .AMOADDW | .AMOXORW | .AMOANDW | .AMOORW | .AMOMINW
  | .AMOMAXW | .AMOMINUW | .AMOMAXUW | .LRD | .SCD | .AMOSWAPD | .AMOADDD | .AMOXORD | .AMOANDD
  | .AMOORD | .AMOMIND | .AMOMAXD | .AMOMINUD | .AMOMAXUD => true
  | _ => false

/-- A quotient by zero. -/
def DividesByZero : IName → VEmu → Prop
  | .DIV, s | .DIVU, s => s.loadReg s.rs2 = 0
  | .DIVW, s | .DIVUW, s => (s.loadReg s.rs2).setWidth 32 = (0 : U32)
  | _, _ => False

/-- Only a division without a quotient raises the flag. -/
lemma dividing_csrs_iff {f : U64 → U64 → Option U64} (h : dividing f s = .ok (e, s')) :
    s'.csrs = s.csrs ∧ s'.mode = s.mode
      ↔ (f (s.loadReg s.rs1) (s.loadReg s.rs2) = none → s.csrs.reg fflags &&& 8 = 8) := by
  unfold dividing at h
  cases hf : f (s.loadReg s.rs1) (s.loadReg s.rs2) with
  | some res =>
      rw [hf] at h
      obtain ⟨-, rfl⟩ := Prod.mk.inj (Except.ok.inj h)
      exact iff_of_true ⟨rfl, rfl⟩ nofun
  | none =>
      rw [hf] at h
      obtain ⟨-, rfl⟩ := Prod.mk.inj (Except.ok.inj h)
      simp only [true_imp_iff, ← or_mask_eq_self_iff]
      constructor
      · rintro ⟨hcsrs, -⟩
        rw [← Csrs.reg_set_self s.csrs fflags (s.csrs.reg fflags ||| 8)]
        exact congrArg (·.reg fflags) hcsrs
      · intro hset
        refine ⟨?_, rfl⟩
        change s.csrs.set fflags (s.csrs.reg fflags ||| 8) = s.csrs
        rw [hset, Csrs.set_reg_self]

/-- A division has no quotient exactly if the divisor is zero. -/
lemma handler_dividing_csrs_iff (hn : isDividing n = true) (h : handler host n s = .ok (e, s')) :
    s'.csrs = s.csrs ∧ s'.mode = s.mode
      ↔ (DividesByZero n s → s.csrs.reg fflags &&& 8 = 8) := by
  cases n <;> simp only [isDividing, reduceCtorEq] at hn
  all_goals
    simp only [handler, DIV, DIVU, DIVW, DIVUW] at h
    refine (dividing_csrs_iff h).trans (imp_congr_left ?_)
    dsimp only [DividesByZero]
    split_ifs <;> simp_all

lemma not_dividesByZero (hn : isDividing n = false) : ¬ DividesByZero n s := by
  cases n <;> first | exact id | cases hn

/-- **The integer instructions** leave the control registers and the mode alone, except that a
quotient by zero raises the flag of a division by zero. -/
theorem csrs_unchanged_iff (host : Host) (n : IName) (hn : isInteger n = true) (s s' : VEmu)
    (e : ReturnException) (h : handler host n s = .ok (e, s')) :
    s'.csrs = s.csrs ∧ s'.mode = s.mode
      ↔ (DividesByZero n s → s.csrs.reg fflags &&& 8 = 8) := by
  cases hdiv : isDividing n with
  | true => exact handler_dividing_csrs_iff hdiv h
  | false =>
      have hview : Unseen fun s : VEmu => (s.csrs, s.mode) :=
        .of_bus (fun _ _ => rfl) fun _ _ => rfl
      have hcsr : isCsrModify n = false := by cases n <;> first | rfl | cases hn
      have henv : isEnvironment n = false := by cases n <;> first | rfl | cases hn
      have hsame := (hview.common fun _ _ => rfl).handler host hdiv hcsr henv s e s' h
      exact iff_of_true (Prod.mk.inj hsame) fun hzero => absurd hzero (not_dividesByZero hdiv)

/-- A hart at `div x3, x1, x2`, with nothing in the control registers. -/
def dividingHart (x2 : U64) : VEmu :=
  { userHart 0 0 with
    csrs := ⟨fun _ => 0⟩
    iregs := RegFile.new.storeReg 2 x2
    currInstr := ⟨.R, .DIV, { Fields.zero with rd := 3, rs1 := 1, rs2 := 2 }, ""⟩ }

theorem csrs_unchanged_div_one :
    ∃ s', handler (.bare .emu) .DIV (dividingHart 1) = .ok (.NormalExecutionReturn, s')
      ∧ s'.csrs = (dividingHart 1).csrs ∧ s'.mode = (dividingHart 1).mode := by
  have hdivisor : (dividingHart 1).loadReg (dividingHart 1).rs2 ≠ 0 := by decide
  exact ⟨_, rfl, (csrs_unchanged_iff (.bare .emu) .DIV rfl (dividingHart 1) _ _ rfl).mpr
    fun hzero => absurd hzero hdivisor⟩

/-- A quotient by zero is visible in the flags. -/
theorem csrs_changed_div_zero :
    ∃ s', handler (.bare .emu) .DIV (dividingHart 0) = .ok (.NormalExecutionReturn, s')
      ∧ ¬ (s'.csrs = (dividingHart 0).csrs ∧ s'.mode = (dividingHart 0).mode) := by
  refine ⟨_, rfl, ?_⟩
  rintro ⟨hcsrs, -⟩
  exact absurd (congrArg (·.reg fflags) hcsrs) (by decide)

end VEmu

end Vemu
