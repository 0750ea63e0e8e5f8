import Vemu.Refinement.Access

/-!
# The handlers of RV64I refine the instruction set

`operation` reads the decoder's mnemonic and fields as an instruction of RV64I.  A handler
*performs* a step of the hart when it reports a normal return and leaves, after the four bytes
that the loop adds to the program counter, the hart of the step.

**`handler_performs`**: every handler performs its instruction, as long as the access it makes, if
it makes one, is admitted and does not end with RAM.  At the end of RAM the handler does not
come back (**`handler_at_end`**).
-/

namespace Vemu

open Fallible Loop Riscv

namespace VEmu

/-- The instruction of RV64I that a mnemonic and its fields stand for. -/
def operation (n : IName) (f : Fields) : Option Rv64i :=
  let imm := f.imm.signExtend 64
  match n with
  | .LUI => some (.lui f.rd imm)
  | .AUIPC => some (.auipc f.rd imm)
  | .JAL => some (.jal f.rd imm)
  | .JALR => some (.jalr f.rd f.rs1 imm)
  | .BEQ => some (.branch .BEQ f.rs1 f.rs2 imm)
  | .BNE => some (.branch .BNE f.rs1 f.rs2 imm)
  | .BLT => some (.branch .BLT f.rs1 f.rs2 imm)
  | .BGE => some (.branch .BGE f.rs1 f.rs2 imm)
  | .BLTU => some (.branch .BLTU f.rs1 f.rs2 imm)
  | .BGEU => some (.branch .BGEU f.rs1 f.rs2 imm)
  | .LB => some (.load .byte true f.rd f.rs1 imm)
  | .LH => some (.load .half true f.rd f.rs1 imm)
  | .LW => some (.load .word true f.rd f.rs1 imm)
  | .LD => some (.load .double false f.rd f.rs1 imm)
  | .LBU => some (.load .byte false f.rd f.rs1 imm)
  | .LHU => some (.load .half false f.rd f.rs1 imm)
  | .LWU => some (.load .word false f.rd f.rs1 imm)
  | .SB => some (.store .byte f.rs1 f.rs2 imm)
  | .SH => some (.store .half f.rs1 f.rs2 imm)
  | .SW => some (.store .word f.rs1 f.rs2 imm)
  | .SD => some (.store .double f.rs1 f.rs2 imm)
  | .ADDI => some (.aluImm .ADD f.rd f.rs1 imm)
  | .SLTI => some (.aluImm .SLT f.rd f.rs1 imm)
  | .SLTIU => some (.aluImm .SLTU f.rd f.rs1 imm)
  | .XORI => some (.aluImm .XOR f.rd f.rs1 imm)
  | .ORI => some (.aluImm .OR f.rd f.rs1 imm)
  | .ANDI => some (.aluImm .AND f.rd f.rs1 imm)
  | .SLLI => some (.aluImm .SLL f.rd f.rs1 imm)
  | .SRLI => some (.aluImm .SRL f.rd f.rs1 imm)
  | .SRAI => some (.aluImm .SRA f.rd f.rs1 imm)
  | .ADDIW => some (.aluWImm .ADDW f.rd f.rs1 imm)
  | .SLLIW => some (.aluWImm .SLLW f.rd f.rs1 imm)
  | .SRLIW => some (.aluWImm .SRLW f.rd f.rs1 imm)
  | .SRAIW => some (.aluWImm .SRAW f.rd f.rs1 imm)
  | .ADD => some (.alu .ADD f.rd f.rs1 f.rs2)
  | .SUB => some (.alu .SUB f.rd f.rs1 f.rs2)
  | .SLL => some (.alu .SLL f.rd f.rs1 f.rs2)
  | .SLT => some (.alu .SLT f.rd f.rs1 f.rs2)
  | .SLTU => some (.alu .SLTU f.rd f.rs1 f.rs2)
  | .XOR => some (.alu .XOR f.rd f.rs1 f.rs2)
  | .SRL => some (.alu .SRL f.rd f.rs1 f.rs2)
  | .SRA => some (.alu .SRA f.rd f.rs1 f.rs2)
  | .OR => some (.alu .OR f.rd f.rs1 f.rs2)
  | .AND => some (.alu .AND f.rd f.rs1 f.rs2)
  | .ADDW => some (.aluW .ADDW f.rd f.rs1 f.rs2)
  | .SUBW => some (.aluW .SUBW f.rd f.rs1 f.rs2)
  | .SLLW => some (.aluW .SLLW f.rd f.rs1 f.rs2)
  | .SRLW => some (.aluW .SRLW f.rd f.rs1 f.rs2)
  | .SRAW => some (.aluW .SRAW f.rd f.rs1 f.rs2)
  | .FENCE | .FENCEI => some .fence
  | _ => none

/-- The handler goes through and leaves the hart, once the loop has added four. -/
def Performs (h : Handler) (s : VEmu) (t : Hart) : Prop :=
  ∃ s', h s = .ok (.NormalExecutionReturn, s') ∧ { s'.hart with pc := s'.pc + 4 } = t

/-- The instruction makes an access that ends with RAM. -/
def TouchesRamEnd (s : VEmu) (i : Rv64i) : Prop := ∃ acc ∈ i.access s.hart, s.AtRamEnd acc

instance (s : VEmu) (i : Rv64i) : Decidable (s.TouchesRamEnd i) :=
  match h : i.access s.hart with
  | some acc =>
      decidable_of_iff (s.AtRamEnd acc) (by simp [TouchesRamEnd, h])
  | none => isFalse (by simp [TouchesRamEnd, h])

variable {s : VEmu}

/-! ## Writing a register -/

lemma x_storeReg (s : VEmu) (rd : Reg) (v : U64) :
    (s.storeReg rd v).hart.x = s.hart.write rd v := RegFile.data_storeReg _ _ _

/-- A handler that writes a register. -/
lemma performs_storeReg {h : Handler} {rd : Reg} {v : U64} (hs : h s = normal (s.storeReg rd v)) :
    Performs h s (s.hart.next rd v) := by
  exact ⟨_, hs, Hart.ext (x_storeReg s rd v) rfl rfl⟩

section Results

variable {v : U64} {f : U64 → U64 → U64} {g : U64 → U8 → U64}

lemma regReg_performs (hv : f (s.loadReg s.rs1) (s.loadReg s.rs2) = v) :
    Performs (regReg f) s (s.hart.next s.rd v) := performs_storeReg (by rw [regReg, hv])

lemma regImm_performs (hv : f (s.loadReg s.rs1) s.imm = v) :
    Performs (regImm f) s (s.hart.next s.rd v) := performs_storeReg (by rw [regImm, hv])

lemma shiftReg_performs {mask : U64}
    (hv : g (s.loadReg s.rs1) ((s.loadReg s.rs2 &&& mask).setWidth 8) = v) :
    Performs (shiftReg mask g) s (s.hart.next s.rd v) :=
  performs_storeReg (by simp only [shiftReg, hv])

lemma shiftImm_performs {mask : U32}
    (hv : g (s.loadReg s.rs1) ((s.imm32 &&& mask).setWidth 8) = v) :
    Performs (shiftImm mask g) s (s.hart.next s.rd v) :=
  performs_storeReg (by simp only [shiftImm, hv])

end Results

/-! ## Comparisons, words and shift amounts -/

lemma slt_result (a b : U64) : (if a.slt b then 1 else 0) = AluOp.SLT.result a b := by
  simp [AluOp.result, BitVec.slt]

lemma sltu_result (a b : U64) : (if a < b then 1 else 0) = AluOp.SLTU.result a b := by
  simp [AluOp.result, BitVec.lt_def]

/-- The lower half of a sum of double words. -/
lemma addiw_result (a b : U64) :
    (((a + b) &&& 0xFFFFFFFF).setWidth 32).signExtend 64 = AluWOp.ADDW.result a b := by
  have hmask : ∀ x : U64, (x &&& 0xFFFFFFFF).setWidth 32 = x.setWidth 32 := by
    intro x
    have hand : (x &&& 0xFFFFFFFF).toNat = x.toNat % 2 ^ 32 :=
      Nat.and_two_pow_sub_one_eq_mod x.toNat 32
    apply BitVec.eq_of_toNat_eq
    rw [BitVec.toNat_setWidth, BitVec.toNat_setWidth, hand, Nat.mod_mod]
  rw [hmask, BitVec.setWidth_add _ _ (by decide)]
  rfl

lemma toNat_and_63 {w : ℕ} (hw : 6 ≤ w) (x : BitVec w) :
    ((x &&& BitVec.ofNat w 63).setWidth 8).toNat = x.toNat % 64 := by
  have hlt : 63 < 2 ^ w := lt_of_lt_of_le (by decide) (Nat.pow_le_pow_right (by omega) hw)
  have hand : x.toNat &&& 63 = x.toNat % 64 := Nat.and_two_pow_sub_one_eq_mod x.toNat 6
  rw [BitVec.toNat_setWidth, BitVec.toNat_and, BitVec.toNat_ofNat, Nat.mod_eq_of_lt hlt, hand]
  omega

lemma toNat_and_31 {w : ℕ} (hw : 5 ≤ w) (x : BitVec w) :
    ((x &&& BitVec.ofNat w 31).setWidth 8).toNat = x.toNat % 32 := by
  have hlt : 31 < 2 ^ w := lt_of_lt_of_le (by decide) (Nat.pow_le_pow_right (by omega) hw)
  have hand : x.toNat &&& 31 = x.toNat % 32 := Nat.and_two_pow_sub_one_eq_mod x.toNat 5
  rw [BitVec.toNat_setWidth, BitVec.toNat_and, BitVec.toNat_ofNat, Nat.mod_eq_of_lt hlt, hand]
  omega

/-- The lower half of a sign-extended word is the word. -/
lemma toNat_signExtend_mod (x : U32) : (x.signExtend 64).toNat % 2 ^ 32 = x.toNat := by
  have h : (x.signExtend 64).setWidth 32 = x := by
    apply BitVec.eq_of_getLsbD_eq
    intro i hi
    rw [BitVec.getLsbD_setWidth, BitVec.getLsbD_signExtend]
    simp [hi, show i < 64 by omega]
  simpa [BitVec.toNat_setWidth] using congrArg BitVec.toNat h

/-- The amount of a shift by a register. -/
lemma shamt_reg (b : U64) : ((b &&& 0x3F).setWidth 8).toNat = b.toNat % 64 :=
  toNat_and_63 (by decide) b

lemma shamtW_reg (b : U64) : ((b &&& 0x1F).setWidth 8).toNat = (b.setWidth 32).toNat % 32 := by
  have h : ((b &&& 0x1F).setWidth 8).toNat = b.toNat % 32 := toNat_and_31 (by decide) b
  rw [h, BitVec.toNat_setWidth]
  omega

/-- The amount of a shift by the immediate. -/
lemma shamt_imm (x : U32) : ((x &&& 0x3F).setWidth 8).toNat = (x.signExtend 64).toNat % 64 := by
  have h : ((x &&& 0x3F).setWidth 8).toNat = x.toNat % 64 := toNat_and_63 (by decide) x
  have hmod := toNat_signExtend_mod x
  rw [h]
  omega

lemma shamtW_imm (x : U32) :
    ((x &&& 0x1F).setWidth 8).toNat = ((x.signExtend 64).setWidth 32).toNat % 32 := by
  have h : ((x &&& 0x1F).setWidth 8).toNat = x.toNat % 32 := toNat_and_31 (by decide) x
  rw [h, BitVec.toNat_setWidth, toNat_signExtend_mod]

/-! ## Jumps and branches -/

lemma link_eq_some {h t : Hart} {rd : Reg} {target : U64} (ht : h.link rd target = some t) :
    t = { h with x := h.write rd (h.pc + 4), pc := target } := by
  unfold Hart.link at ht
  split_ifs at ht
  exact (Option.some.inj ht).symm

/-- A handler that links and jumps, four bytes short. -/
lemma performs_link {h : Handler} {t : Hart} {rd : Reg} {target : U64}
    (hs : h s = normal { s.storeReg rd (s.pc + 4) with pc := target - 4 })
    (ht : s.hart.link rd target = some t) : Performs h s t := by
  refine ⟨_, hs, ?_⟩
  rw [link_eq_some ht, BitVec.sub_add_cancel]
  exact Hart.ext (x_storeReg s rd _) rfl rfl

lemma branch_performs {f : U64 → U64 → Bool} {op : BOp} {t : Hart} (hf : ∀ a b, f a b = op.taken a b)
    (ht : (Rv64i.branch op s.rs1 s.rs2 s.imm).exec s.hart = some t) : Performs (branch f) s t := by
  have hcond : f (s.loadReg s.rs1) (s.loadReg s.rs2)
      = op.taken (s.hart.x s.rs1) (s.hart.x s.rs2) := hf _ _
  simp only [Rv64i.exec] at ht
  by_cases htaken : op.taken (s.hart.x s.rs1) (s.hart.x s.rs2) = true
  · rw [if_pos htaken] at ht
    have hjump : branch f s
        = normal { s.storeReg 0 (s.pc + 4) with pc := s.pc + s.imm - 4 } := by
      rw [branch, hcond, if_pos htaken]
      rfl
    exact performs_link hjump ht
  · rw [if_neg htaken] at ht
    obtain rfl := Option.some.inj ht
    refine ⟨s, ?_, rfl⟩
    rw [branch, hcond, if_neg htaken]
    rfl

/-! ## Loads -/

section Memory

variable {sz n : ℕ}

lemma loadUnsigned_eq (hm : s.bus.mmu.Backed) (hsz : MMU.sizeBytes sz = some n)
    (h : s.Admitted ⟨s.loadReg s.rs1 + s.imm, n, false⟩)
    (hend : ¬ s.AtRamEnd ⟨s.loadReg s.rs1 + s.imm, n, false⟩) :
    loadUnsigned sz s
      = normal (s.storeReg s.rd (s.hart.loaded (s.loadReg s.rs1 + s.imm) n false)) := by
  simp only [loadUnsigned, load_admitted hm hsz h hend, ok_bind]
  rfl

lemma loadUnsigned_performs (hm : s.bus.mmu.Backed) (hsz : MMU.sizeBytes sz = some n)
    (h : s.Admitted ⟨s.loadReg s.rs1 + s.imm, n, false⟩)
    (hend : ¬ s.AtRamEnd ⟨s.loadReg s.rs1 + s.imm, n, false⟩) :
    Performs (loadUnsigned sz) s
      (s.hart.next s.rd (s.hart.loaded (s.loadReg s.rs1 + s.imm) n false)) :=
  performs_storeReg (loadUnsigned_eq hm hsz h hend)

/-- A register that is written twice holds the second value. -/
lemma write_storeReg (s : VEmu) (rd : Reg) (v v' : U64) :
    (s.storeReg rd v).hart.write rd v' = s.hart.write rd v' := by
  rw [Hart.write, x_storeReg, Hart.write, Hart.write]
  split_ifs
  · rfl
  · rw [Function.update_idem]

/-- The register is written twice, the second time from itself. -/
lemma loadSigned_performs {bits : ℕ} (hm : s.bus.mmu.Backed) (hsz : MMU.sizeBytes sz = some n)
    (hbits : bits = 8 * n) (h : s.Admitted ⟨s.loadReg s.rs1 + s.imm, n, false⟩)
    (hend : ¬ s.AtRamEnd ⟨s.loadReg s.rs1 + s.imm, n, false⟩) :
    Performs (loadSigned bits (loadUnsigned sz)) s
      (s.hart.next s.rd (s.hart.loaded (s.loadReg s.rs1 + s.imm) n true)) := by
  subst hbits
  have hn : 8 * n ≤ 64 := by
    have := (MMU.sizeBytes_le hsz).2
    omega
  set r := s.hart.read (s.loadReg s.rs1 + s.imm) n with hr
  set s₁ := s.storeReg s.rd (BitVec.ofNat 64 r) with hs₁
  have hunsigned : loadUnsigned sz s = normal s₁ := loadUnsigned_eq hm hsz h hend
  refine ⟨s₁.storeReg s.rd (((s₁.loadReg s.rd).setWidth (8 * n)).signExtend 64), ?_, ?_⟩
  · rw [loadSigned, hunsigned]
    rfl
  refine Hart.ext ?_ rfl rfl
  change (s₁.storeReg s.rd _).hart.x = s.hart.write s.rd (s.hart.loaded _ n true)
  rw [x_storeReg, hs₁, write_storeReg, Hart.loaded, if_pos rfl, ← hr]
  by_cases hrd : s.rd = 0
  · rw [Hart.write, Hart.write, if_pos hrd, if_pos hrd]
  · have hreg : (s.storeReg s.rd (BitVec.ofNat 64 r)).loadReg s.rd = BitVec.ofNat 64 r := by
      change (s.storeReg s.rd (BitVec.ofNat 64 r)).hart.x s.rd = _
      rw [x_storeReg, Hart.write, if_neg hrd, Function.update_self]
    have hnarrow : (BitVec.ofNat 64 r).setWidth (8 * n) = BitVec.ofNat (8 * n) r :=
      BitVec.setWidth_ofNat_of_le hn r
    rw [hreg, hnarrow]

lemma loadUnsigned_at_end (hsz : MMU.sizeBytes sz = some n)
    (h : s.Admitted ⟨s.loadReg s.rs1 + s.imm, n, false⟩)
    (hend : s.AtRamEnd ⟨s.loadReg s.rs1 + s.imm, n, false⟩) :
    loadUnsigned sz s = .error .assertFailed := by
  simp only [loadUnsigned, load_at_end hsz h hend, error_bind]

lemma loadSigned_at_end {bits : ℕ} (hsz : MMU.sizeBytes sz = some n)
    (h : s.Admitted ⟨s.loadReg s.rs1 + s.imm, n, false⟩)
    (hend : s.AtRamEnd ⟨s.loadReg s.rs1 + s.imm, n, false⟩) :
    loadSigned bits (loadUnsigned sz) s = .error .assertFailed := by
  rw [loadSigned, loadUnsigned_at_end hsz h hend, error_bind]

/-! ## Stores -/

/-- Masking with the lowest `n` bytes keeps each of them. -/
lemma byte_and_mask {m : U64} (hmask : m = BitFields.mask 64 0 (8 * n)) (hn : 8 * n ≤ 64)
    (v : U64) (k : ℕ) (hk : k < n) :
    ((v &&& m) >>> (8 * k)).setWidth 8 = v.extractLsb' (8 * k) 8 := by
  subst hmask
  apply BitVec.eq_of_getLsbD_eq
  intro i hi
  have h1 : 8 * k + i < 64 := by omega
  have h2 : 8 * k + i < 8 * n := by omega
  simp [BitFields.mask, hi, h1, h2]

lemma byte_unmasked (v : U64) (k : ℕ) :
    (v >>> (8 * k)).setWidth 8 = v.extractLsb' (8 * k) 8 := by
  apply BitVec.eq_of_getLsbD_eq
  intro i hi
  simp [hi]

lemma storeData_performs {f : U64 → U64} (hm : s.bus.mmu.Backed) (hsz : MMU.sizeBytes sz = some n)
    (h : s.Admitted ⟨s.loadReg s.rs1 + s.imm, n, true⟩)
    (hend : ¬ s.AtRamEnd ⟨s.loadReg s.rs1 + s.imm, n, true⟩)
    (hf : ∀ v, ∀ k < n, (f v >>> (8 * k)).setWidth 8 = v.extractLsb' (8 * k) 8) :
    Performs (storeData sz f) s { s.hart with
      mem := s.hart.stored (s.loadReg s.rs1 + s.imm) n (s.loadReg s.rs2), pc := s.pc + 4 } := by
  obtain ⟨s', hs', hhart⟩ := store_admitted hm hsz h hend (hf (s.loadReg s.rs2))
  refine ⟨s', hs', ?_⟩
  have hpc : s'.pc = s.pc := congrArg Hart.pc hhart
  rw [hhart, hpc]

lemma storeData_at_end {f : U64 → U64} (hsz : MMU.sizeBytes sz = some n)
    (h : s.Admitted ⟨s.loadReg s.rs1 + s.imm, n, true⟩)
    (hend : s.AtRamEnd ⟨s.loadReg s.rs1 + s.imm, n, true⟩) :
    storeData sz f s = .error .assertFailed := by
  rw [storeData, store_at_end hsz h hend]

end Memory

/-! ## All of RV64I -/

section Instructions

variable {i : Rv64i} {t : Hart}

/-- What the hypotheses of the two theorems say of the instruction's access. -/
lemma admitted_and_not_end {acc : Access} (hacc : ∀ acc ∈ i.access s.hart, s.Admitted acc)
    (hend : ¬ s.TouchesRamEnd i) (h : acc ∈ i.access s.hart) :
    s.Admitted acc ∧ ¬ s.AtRamEnd acc :=
  ⟨hacc acc h, fun hat => hend ⟨acc, h, hat⟩⟩

/-- **Every handler of RV64I performs its instruction**, unless its access ends with RAM. -/
theorem handler_performs (host : Host) (n : IName) (hm : s.bus.mmu.Backed)
    (hop : operation n s.currInstr.f = some i) (hacc : ∀ acc ∈ i.access s.hart, s.Admitted acc)
    (hend : ¬ s.TouchesRamEnd i) (ht : i.exec s.hart = some t) :
    Performs (handler host n) s t := by
  cases n <;> simp only [handler]
  case LUI | AUIPC =>
    obtain rfl := Option.some.inj hop
    obtain rfl := Option.some.inj ht
    exact performs_storeReg rfl
  case JAL | JALR =>
    obtain rfl := Option.some.inj hop
    exact performs_link rfl ht
  case BEQ | BNE | BLTU | BGEU =>
    obtain rfl := Option.some.inj hop
    exact branch_performs (fun a b => by simp [BOp.taken, BitVec.lt_def, BitVec.le_def]) ht
  case BLT | BGE =>
    obtain rfl := Option.some.inj hop
    exact branch_performs (fun a b => by simp [BOp.taken, BitVec.slt, BitVec.sle]) ht
  case LBU | LHU | LWU | LD =>
    obtain rfl := Option.some.inj hop
    obtain rfl := Option.some.inj ht
    obtain ⟨hadm, hnot⟩ := admitted_and_not_end hacc hend rfl
    simp only [LBU, LHU, LWU, LD]
    exact loadUnsigned_performs hm rfl hadm hnot
  case LB | LH | LW =>
    obtain rfl := Option.some.inj hop
    obtain rfl := Option.some.inj ht
    obtain ⟨hadm, hnot⟩ := admitted_and_not_end hacc hend rfl
    simp only [LB, LH, LW, LBU, LHU, LWU]
    exact loadSigned_performs hm rfl rfl hadm hnot
  case SB | SH | SW =>
    obtain rfl := Option.some.inj hop
    obtain rfl := Option.some.inj ht
    obtain ⟨hadm, hnot⟩ := admitted_and_not_end hacc hend rfl
    simp only [SB, SH, SW]
    exact storeData_performs hm rfl hadm hnot (byte_and_mask (by decide) (by decide))
  case SD =>
    obtain rfl := Option.some.inj hop
    obtain rfl := Option.some.inj ht
    obtain ⟨hadm, hnot⟩ := admitted_and_not_end hacc hend rfl
    simp only [SD]
    exact storeData_performs hm rfl hadm hnot fun v k _ => byte_unmasked v k
  case ADDI | XORI | ORI | ANDI =>
    obtain rfl := Option.some.inj hop
    obtain rfl := Option.some.inj ht
    exact regImm_performs rfl
  case SLTI =>
    obtain rfl := Option.some.inj hop
    obtain rfl := Option.some.inj ht
    exact regImm_performs (slt_result _ _)
  case SLTIU =>
    obtain rfl := Option.some.inj hop
    obtain rfl := Option.some.inj ht
    exact regImm_performs (sltu_result _ _)
  case ADDIW =>
    obtain rfl := Option.some.inj hop
    obtain rfl := Option.some.inj ht
    exact regImm_performs (addiw_result _ _)
  case SLLI | SRLI | SRAI =>
    obtain rfl := Option.some.inj hop
    obtain rfl := Option.some.inj ht
    exact shiftImm_performs (by rw [shamt_imm]; rfl)
  case SLLIW | SRLIW | SRAIW =>
    obtain rfl := Option.some.inj hop
    obtain rfl := Option.some.inj ht
    exact shiftImm_performs (by rw [shamtW_imm]; rfl)
  case ADD | SUB | XOR | OR | AND =>
    obtain rfl := Option.some.inj hop
    obtain rfl := Option.some.inj ht
    exact regReg_performs rfl
  case SLT =>
    obtain rfl := Option.some.inj hop
    obtain rfl := Option.some.inj ht
    exact regReg_performs (slt_result _ _)
  case SLTU =>
    obtain rfl := Option.some.inj hop
    obtain rfl := Option.some.inj ht
    exact regReg_performs (sltu_result _ _)
  case ADDW | SUBW =>
    obtain rfl := Option.some.inj hop
    obtain rfl := Option.some.inj ht
    exact regReg_performs rfl
  case SLL | SRL | SRA =>
    obtain rfl := Option.some.inj hop
    obtain rfl := Option.some.inj ht
    exact shiftReg_performs (by rw [shamt_reg]; rfl)
  case SLLW | SRLW | SRAW =>
    obtain rfl := Option.some.inj hop
    obtain rfl := Option.some.inj ht
    exact shiftReg_performs (by rw [shamtW_reg]; rfl)
  case FENCE | FENCEI =>
    obtain rfl := Option.some.inj hop
    obtain rfl := Option.some.inj ht
    exact ⟨s, rfl, rfl⟩
  -- the other mnemonics are not of RV64I
  all_goals cases hop

/-- **An access that ends with RAM fails an assertion.** -/
theorem handler_at_end (host : Host) (n : IName) (hop : operation n s.currInstr.f = some i)
    (hacc : ∀ acc ∈ i.access s.hart, s.Admitted acc) (hend : s.TouchesRamEnd i) :
    handler host n s = .error .assertFailed := by
  obtain ⟨acc, hmem, hat⟩ := hend
  have hadm := hacc acc hmem
  cases n <;> simp only [handler]
  case LBU | LHU | LWU | LD =>
    obtain rfl := Option.some.inj hop
    obtain rfl := Option.some.inj hmem
    simp only [LBU, LHU, LWU, LD]
    exact loadUnsigned_at_end rfl hadm hat
  case LB | LH | LW =>
    obtain rfl := Option.some.inj hop
    obtain rfl := Option.some.inj hmem
    simp only [LB, LH, LW, LBU, LHU, LWU]
    exact loadSigned_at_end rfl hadm hat
  case SB | SH | SW | SD =>
    obtain rfl := Option.some.inj hop
    obtain rfl := Option.some.inj hmem
    simp only [SB, SH, SW, SD]
    exact storeData_at_end rfl hadm hat
  -- the other instructions make no access, or are not of RV64I
  all_goals cases hop <;> simp only [Rv64i.access, Option.mem_def, reduceCtorEq] at hmem

end Instructions

end VEmu

end Vemu
