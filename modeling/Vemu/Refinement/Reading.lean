import Vemu.Decoder.Encode
import Vemu.Handlers.Untouched
import Vemu.Refinement.Handlers
import Vemu.Refinement.Multiplication
import Vemu.Riscv.Machine

/-!
# What is decoded, and what is executed

The decoder reports a mnemonic and fields, from which `operation` reads an instruction of RV64I; the
instruction set starts from the encoded instruction itself (`Instr.rv64i`).  The two have the same
effect on every hart (`operation_of_reads`): an immediate is sign-extended in two steps by the
emulator, and the upper bits of a shift amount are cut off by the handler.
-/

namespace Vemu

open Fallible Riscv

namespace VEmu

variable {ins : Instruction} {i : Instr} {b : Rv64i}

/-! ## Immediates -/

lemma signExtend_twice {n : ℕ} (hn : n ≤ 32) (imm : BitVec n) :
    (imm.signExtend 32).signExtend 64 = imm.signExtend 64 := by
  apply BitVec.eq_of_toInt_eq
  rw [BitVec.toInt_signExtend_of_le (by decide), BitVec.toInt_signExtend_of_le hn,
    BitVec.toInt_signExtend_of_le (by omega)]

/-- The amount of a shift is in the low bits of the immediate. -/
lemma signExtend_mod {k : ℕ} (hk : k < 32) {x : U32} {shamt : BitVec k}
    (h : x &&& BitVec.ofNat 32 (2 ^ k - 1) = shamt.setWidth 32) :
    (x.signExtend 64).toNat % 2 ^ k = (shamt.setWidth 64).toNat % 2 ^ k := by
  have hlt := shamt.isLt
  have hpow : 2 ^ k ∣ 2 ^ 32 := pow_dvd_pow 2 hk.le
  have hle : 2 ^ k ≤ 2 ^ 32 := Nat.le_of_dvd (by decide) hpow
  have hmask : (x &&& BitVec.ofNat 32 (2 ^ k - 1)).toNat = x.toNat % 2 ^ k := by
    rw [BitVec.toNat_and, BitVec.toNat_ofNat, Nat.mod_eq_of_lt (by omega),
      Nat.and_two_pow_sub_one_eq_mod]
  have h32 : shamt.toNat % 2 ^ 32 = shamt.toNat := Nat.mod_eq_of_lt (by omega)
  have h64 : shamt.toNat % 2 ^ 64 = shamt.toNat := Nat.mod_eq_of_lt (by omega)
  rw [← Nat.mod_mod_of_dvd _ hpow, toNat_signExtend_mod, ← hmask, h, BitVec.toNat_setWidth,
    BitVec.toNat_setWidth, h32, h64, Nat.mod_eq_of_lt hlt]

lemma shift_result (op : ShiftOp) {a x y : U64} (h : x.toNat % 64 = y.toNat % 64) :
    op.alu.result a x = op.alu.result a y := by
  cases op <;> simp only [ShiftOp.alu, AluOp.result, h]

lemma shiftW_result (op : ShiftWOp) {a x y : U64} (h : x.toNat % 32 = y.toNat % 32) :
    op.alu.result a x = op.alu.result a y := by
  have hword : (x.setWidth 32).toNat % 32 = (y.setWidth 32).toNat % 32 := by
    rw [BitVec.toNat_setWidth, BitVec.toNat_setWidth]
    omega
  cases op <;> simp only [ShiftWOp.alu, AluWOp.result, AluWOp.resultWord, hword]

/-! ## Instructions of RV64I -/

/-- What the decoder makes of an encoded instruction, without its caches. -/
lemma decodeOf_encode (i : Instr) : ∃ ins, decodeOf i.encode = .ok ins ∧ Reads ins i := by
  cases i with
  | r op rd rs1 rs2 => exact decode_r rd rs1 rs2 op
  | i op rd rs1 imm => exact decode_i rd rs1 op imm
  | shift op rd rs1 shamt => exact decode_shift rd rs1 op shamt
  | shiftW op rd rs1 shamt => exact decode_shiftW rd rs1 op shamt
  | s op rs1 rs2 imm => exact decode_s rs1 rs2 op imm
  | b op rs1 rs2 halfwords => exact decode_b rs1 rs2 op halfwords
  | u op rd imm => exact decode_u rd op imm
  | jal rd halfwords => exact decode_jal rd halfwords
  | amo op double aq rl rd rs1 rs2 => exact decode_amo rd rs1 rs2 op double aq rl
  | lr double aq rl rd rs1 => exact decode_lr rd rs1 double aq rl
  | system op => exact decode_system op

/-- Two instructions that do the same to every hart. -/
structure SameEffect (o b : Rv64i) : Prop where
  exec : ∀ t, o.exec t = b.exec t
  access : ∀ t, o.access t = b.access t

/-- **What is read from the decoder's report** has the effect of the instruction. -/
lemma operation_of_reads (h : Reads ins i) (hb : i.rv64i = some b) :
    ∃ o, operation ins.name ins.f = some o ∧ SameEffect o b := by
  cases i with
  | r => cases hb
  | amo => cases hb
  | lr => cases hb
  | system => cases hb
  | i op rd rs1 imm =>
      obtain ⟨hname, rfl, rfl, himm⟩ := h
      simp only [operation, hname, himm, signExtend_twice (n := 12) (by decide)]
      cases op
      case CSRRW | CSRRS | CSRRC | CSRRWI | CSRRSI | CSRRCI => cases hb
      all_goals
        obtain rfl := Option.some.inj hb
        exact ⟨_, rfl, fun _ => rfl, fun _ => rfl⟩
  | shift op rd rs1 shamt =>
      obtain ⟨hname, rfl, rfl, himm⟩ := h
      obtain rfl := Option.some.inj hb
      have hmod := signExtend_mod (k := 6) (by decide) himm
      refine ⟨.aluImm op.alu ins.f.rd ins.f.rs1 (ins.f.imm.signExtend 64), ?_, fun t => ?_,
        fun _ => rfl⟩
      · rw [hname]
        cases op <;> rfl
      · simp only [Rv64i.exec, shift_result op hmod]
  | shiftW op rd rs1 shamt =>
      obtain ⟨hname, rfl, rfl, himm⟩ := h
      obtain rfl := Option.some.inj hb
      have hmod := signExtend_mod (k := 5) (by decide) himm
      refine ⟨.aluWImm op.alu ins.f.rd ins.f.rs1 (ins.f.imm.signExtend 64), ?_, fun t => ?_,
        fun _ => rfl⟩
      · rw [hname]
        cases op <;> rfl
      · simp only [Rv64i.exec, shiftW_result op hmod]
  | s op rs1 rs2 imm =>
      obtain ⟨hname, rfl, rfl, himm⟩ := h
      obtain rfl := Option.some.inj hb
      simp only [operation, hname, himm, signExtend_twice (n := 12) (by decide)]
      cases op <;> exact ⟨_, rfl, fun _ => rfl, fun _ => rfl⟩
  | b op rs1 rs2 halfwords =>
      obtain ⟨hname, rfl, rfl, himm⟩ := h
      obtain rfl := Option.some.inj hb
      simp only [operation, hname, himm, signExtend_twice (n := 13) (by decide)]
      cases op <;> exact ⟨_, rfl, fun _ => rfl, fun _ => rfl⟩
  | u op rd imm =>
      obtain ⟨hname, rfl, himm⟩ := h
      simp only [operation, hname, himm]
      cases op
      all_goals
        obtain rfl := Option.some.inj hb
        exact ⟨_, rfl, fun _ => rfl, fun _ => rfl⟩
  | jal rd halfwords =>
      obtain ⟨hname, rfl, himm⟩ := h
      obtain rfl := Option.some.inj hb
      simp only [operation, hname, himm, signExtend_twice (n := 21) (by decide)]
      exact ⟨_, rfl, fun _ => rfl, fun _ => rfl⟩

/-! ## Operations on two registers -/

variable {s s' : VEmu} {h : Handler} {e : ReturnException}

def place (s : VEmu) : U64 × MMU := (s.pc, s.bus.mmu)

/-- The program counter and memory stay. -/
def KeepsPlace (h : Handler) : Prop := Preserves place h

lemma regReg_keepsPlace (f : U64 → U64 → U64) : KeepsPlace (regReg f) := fun _ _ _ h =>
  preserves_normal h rfl

lemma dividing_keepsPlace (f : U64 → U64 → Option U64) : KeepsPlace (dividing f) := fun s _ _ h => by
  unfold dividing at h
  split at h
  · exact preserves_normal h rfl
  · exact preserves_normal h rfl

lemma Writes.performs {v : U64} (hw : Writes h s v) (hkeeps : KeepsPlace h) :
    Performs h s (s.hart.next s.rd v) := by
  obtain ⟨s', hs', hregs⟩ := hw
  obtain ⟨hpc, hmmu⟩ := Prod.mk.inj (hkeeps s _ s' hs')
  have hmem : s'.bus.mmu.ram = s.bus.mmu.ram := congrArg MMU.ram hmmu
  have hx : s'.hart.x = s.hart.write s.rd v := by
    change s'.iregs.data = _
    rw [hregs]
    exact x_storeReg s s.rd v
  refine ⟨s', hs', Hart.ext hx ?_ ?_⟩
  · exact congrArg (· + 4) hpc
  · exact congrArg (fun ram : ByteVec => fun a : U64 => ram.data a.toNat) hmem

/-- The handler writes the result of the operation, and does nothing else that a hart sees. -/
def Computes (h : Handler) (f : U64 → U64 → U64) : Prop :=
  KeepsPlace h ∧ ∀ s : VEmu, Writes h s (f (s.loadReg s.rs1) (s.loadReg s.rs2))

/-- An operation on two registers is one of RV64I, or its handler computes it. -/
lemma operation_r {op : ROp} {rd rs1 rs2 : Reg} (h : Reads ins (.r op rd rs1 rs2)) :
    (∃ o, operation ins.name ins.f = some o ∧ (∀ t, o.access t = none)
      ∧ ∀ t, o.exec t = (Instr.r op rd rs1 rs2).exec t)
    ∨ ∀ host, Computes (handler host ins.name) op.result := by
  obtain ⟨hname, rfl, rfl, rfl⟩ := h
  rw [hname]
  cases op
  case MUL => exact Or.inr fun _ => ⟨(regReg_keepsPlace _ : KeepsPlace VEmu.MUL), mul_writes⟩
  case MULH => exact Or.inr fun _ => ⟨(regReg_keepsPlace _ : KeepsPlace VEmu.MULH), mulh_writes⟩
  case MULHSU => exact Or.inr fun _ => ⟨(regReg_keepsPlace _ : KeepsPlace VEmu.MULHSU), mulhsu_writes⟩
  case MULHU => exact Or.inr fun _ => ⟨(regReg_keepsPlace _ : KeepsPlace VEmu.MULHU), mulhu_writes⟩
  case MULW => exact Or.inr fun _ => ⟨(regReg_keepsPlace _ : KeepsPlace VEmu.MULW), mulw_writes⟩
  case DIV => exact Or.inr fun _ => ⟨(dividing_keepsPlace _ : KeepsPlace VEmu.DIV), div_writes⟩
  case DIVU => exact Or.inr fun _ => ⟨(dividing_keepsPlace _ : KeepsPlace VEmu.DIVU), divu_writes⟩
  case DIVW => exact Or.inr fun _ => ⟨(dividing_keepsPlace _ : KeepsPlace VEmu.DIVW), divw_writes⟩
  case DIVUW => exact Or.inr fun _ => ⟨(dividing_keepsPlace _ : KeepsPlace VEmu.DIVUW), divuw_writes⟩
  case REM => exact Or.inr fun _ => ⟨(regReg_keepsPlace _ : KeepsPlace VEmu.REM), rem_writes⟩
  case REMU => exact Or.inr fun _ => ⟨(regReg_keepsPlace _ : KeepsPlace VEmu.REMU), remu_writes⟩
  case REMW => exact Or.inr fun _ => ⟨(regReg_keepsPlace _ : KeepsPlace VEmu.REMW), remw_writes⟩
  case REMUW => exact Or.inr fun _ => ⟨(regReg_keepsPlace _ : KeepsPlace VEmu.REMUW), remuw_writes⟩
  all_goals exact Or.inl ⟨_, rfl, fun _ => rfl, fun _ => rfl⟩

end VEmu

end Vemu
