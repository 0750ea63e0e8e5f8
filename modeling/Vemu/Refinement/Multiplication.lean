import Vemu.Riscv.Multiplication
import Vemu.Run

/-!
# The handlers of M compute products, quotients and remainders

**`mExact`**: in every state the thirteen handlers write the halves of the product and the
quotients and remainders of the instruction set, and none of them asks the host for a quotient
that the host does not have.  For the second part the divisions are written once more with the
host's division as it is, a partial operation (`hostQuot`, `hostRem`).
-/

namespace Vemu

open Fallible Riscv

namespace VEmu

variable {w : ℕ}

/-! ## The host's divisions -/

/-- `/` on signed numbers.  The host stops at a zero divisor, and where the quotient is too
large. -/
def hostQuot (a b : BitVec w) : Except Fault (BitVec w) :=
  if b = 0 ∨ a = .intMin w ∧ b = -1 then .error .divisionByZero else .ok (a.sdiv b)

def hostRem (a b : BitVec w) : Except Fault (BitVec w) :=
  if b = 0 ∨ a = .intMin w ∧ b = -1 then .error .divisionByZero else .ok (a.srem b)

/-- `/` on unsigned numbers. -/
def hostQuotU (a b : BitVec w) : Except Fault (BitVec w) :=
  if b = 0 then .error .divisionByZero else .ok (a / b)

def hostRemU (a b : BitVec w) : Except Fault (BitVec w) :=
  if b = 0 then .error .divisionByZero else .ok (a % b)

/-- `dividing`, with the division that the host has. -/
def dividingHost (f : U64 → U64 → Except Fault (Option U64)) : Handler := fun s => do
  match ← f (s.loadReg s.rs1) (s.loadReg s.rs2) with
  | some res => normal (s.storeReg s.rd res)
  | none =>
      let s := { s with csrs := s.csrs.set fflags (s.csrs.reg fflags ||| 0x8) }
      normal (s.storeReg s.rd 0xFFFFFFFFFFFFFFFF)

/-- `regReg`, with the remainder that the host has. -/
def regRegHost (f : U64 → U64 → Except Fault U64) : Handler := fun s => do
  let res ← f (s.loadReg s.rs1) (s.loadReg s.rs2)
  normal (s.storeReg s.rd res)

def hostDIV : Handler := dividingHost fun a b =>
  if b = 0 then .ok none
  else if a = .intMin 64 ∧ b = -1 then .ok (some a)
  else do return some (← hostQuot a b)

def hostDIVU : Handler := dividingHost fun a b =>
  if b = 0 then .ok none else do return some (← hostQuotU a b)

def hostDIVW : Handler := dividingHost fun a b =>
  let a := a.setWidth 32
  let b := b.setWidth 32
  if b = 0 then .ok none
  else if b = -1 ∧ a = .intMin 32 then .ok (some (a.signExtend 64))
  else do return some ((← hostQuot a b).signExtend 64)

def hostDIVUW : Handler := dividingHost fun a b =>
  let a := a.setWidth 32
  let b := b.setWidth 32
  if b = 0 then .ok none else do return some ((← hostQuotU a b).signExtend 64)

def hostREM : Handler := regRegHost fun a b =>
  if b = 0 then .ok a else if a = .intMin 64 ∧ b = -1 then .ok 0 else hostRem a b

def hostREMU : Handler := regRegHost fun a b => if b = 0 then .ok a else hostRemU a b

def hostREMW : Handler := regRegHost fun a b =>
  let a := a.setWidth 32
  let b := b.setWidth 32
  if b = 0 then .ok (a.signExtend 64)
  else if b = -1 ∧ a = .intMin 32 then .ok 0
  else do return (← hostRem a b).signExtend 64

def hostREMUW : Handler := regRegHost fun a b =>
  let a := a.setWidth 32
  let b := b.setWidth 32
  if b = 0 then .ok (a.signExtend 64) else do return (← hostRemU a b).signExtend 64

/-- The divisions, by the host's. -/
def hostHandler : IName → Option Handler
  | .DIV => some hostDIV
  | .DIVU => some hostDIVU
  | .DIVW => some hostDIVW
  | .DIVUW => some hostDIVUW
  | .REM => some hostREM
  | .REMU => some hostREMU
  | .REMW => some hostREMW
  | .REMUW => some hostREMUW
  | _ => none

lemma dividingHost_eq {f : U64 → U64 → Except Fault (Option U64)} {g : U64 → U64 → Option U64}
    (h : ∀ a b, f a b = .ok (g a b)) : dividingHost f = dividing g := by
  funext s
  rw [dividingHost, h, ok_bind]
  rfl

lemma regRegHost_eq {f : U64 → U64 → Except Fault U64} {g : U64 → U64 → U64}
    (h : ∀ a b, f a b = .ok (g a b)) : regRegHost f = regReg g := by
  funext s
  rw [regRegHost, h, ok_bind]
  rfl

lemma hostQuot_eq {a b : BitVec w} (hb : b ≠ 0) (hover : ¬ (a = .intMin w ∧ b = -1)) :
    hostQuot a b = .ok (a.sdiv b) := if_neg (not_or.mpr ⟨hb, hover⟩)

lemma hostRem_eq {a b : BitVec w} (hb : b ≠ 0) (hover : ¬ (a = .intMin w ∧ b = -1)) :
    hostRem a b = .ok (a.srem b) := if_neg (not_or.mpr ⟨hb, hover⟩)

lemma hostQuotU_eq {a b : BitVec w} (hb : b ≠ 0) : hostQuotU a b = .ok (a / b) := if_neg hb

lemma hostRemU_eq {a b : BitVec w} (hb : b ≠ 0) : hostRemU a b = .ok (a % b) := if_neg hb

/-- **The host always has the quotient** it is asked for. -/
lemma hostHandler_eq (host : Host) {n : IName} {h : Handler} (hn : hostHandler n = some h) :
    h = handler host n := by
  cases n <;> simp only [hostHandler, Option.some.injEq, reduceCtorEq] at hn <;> subst hn
  case DIV =>
    simp only [handler, hostDIV, DIV]
    refine dividingHost_eq fun a b => ?_
    split_ifs with hb hover
    · rfl
    · rfl
    · rw [hostQuot_eq hb hover]
      rfl
  case DIVU =>
    simp only [handler, hostDIVU, DIVU]
    refine dividingHost_eq fun a b => ?_
    split_ifs with hb
    · rfl
    · rw [hostQuotU_eq hb]
      rfl
  case DIVW =>
    simp only [handler, hostDIVW, DIVW]
    refine dividingHost_eq fun a b => ?_
    split_ifs with hb hover
    · rfl
    · rfl
    · rw [hostQuot_eq hb (mt And.symm hover)]
      rfl
  case DIVUW =>
    simp only [handler, hostDIVUW, DIVUW]
    refine dividingHost_eq fun a b => ?_
    split_ifs with hb
    · rfl
    · rw [hostQuotU_eq hb]
      rfl
  case REM =>
    simp only [handler, hostREM, REM]
    refine regRegHost_eq fun a b => ?_
    split_ifs with hb hover
    · rfl
    · rfl
    · rw [hostRem_eq hb hover]
  case REMU =>
    simp only [handler, hostREMU, REMU]
    refine regRegHost_eq fun a b => ?_
    split_ifs with hb
    · rfl
    · rw [hostRemU_eq hb]
  case REMW =>
    simp only [handler, hostREMW, REMW]
    refine regRegHost_eq fun a b => ?_
    split_ifs with hb hover
    · rfl
    · rfl
    · rw [hostRem_eq hb (mt And.symm hover)]
      rfl
  case REMUW =>
    simp only [handler, hostREMUW, REMUW]
    refine regRegHost_eq fun a b => ?_
    split_ifs with hb
    · rfl
    · rw [hostRemU_eq hb]
      rfl

/-! ## The thirteen handlers -/

variable {host : Host} {s : VEmu} {h : Handler} {v : U64}

/-- The handler writes the value to `rd`, and to no other register. -/
def Writes (h : Handler) (s : VEmu) (v : U64) : Prop :=
  ∃ s', h s = .ok (.NormalExecutionReturn, s') ∧ s'.iregs = s.iregs.storeReg s.rd v

/-- **The M extension is exact** in a state. -/
structure MExact (host : Host) (s : VEmu) (a b : U64) : Prop where
  mul : Writes (handler host .MUL) s (mulLow 64 a.toInt b.toInt)
  mulh : Writes (handler host .MULH) s (mulHigh 64 a.toInt b.toInt)
  mulhu : Writes (handler host .MULHU) s (mulHigh 64 a.toNat b.toNat)
  mulhsu : Writes (handler host .MULHSU) s (mulHigh 64 a.toInt b.toNat)
  mulw : Writes (handler host .MULW) s
    ((mulLow 32 (a.setWidth 32).toInt (b.setWidth 32).toInt).signExtend 64)
  div_rem : ∃ q r, DividesSigned a b q r
    ∧ Writes (handler host .DIV) s q ∧ Writes (handler host .REM) s r
  divu_remu : ∃ q r, DividesUnsigned a b q r
    ∧ Writes (handler host .DIVU) s q ∧ Writes (handler host .REMU) s r
  divw_remw : ∃ q r, DividesSigned (a.setWidth 32) (b.setWidth 32) q r
    ∧ Writes (handler host .DIVW) s (q.signExtend 64)
    ∧ Writes (handler host .REMW) s (r.signExtend 64)
  divuw_remuw : ∃ q r, DividesUnsigned (a.setWidth 32) (b.setWidth 32) q r
    ∧ Writes (handler host .DIVUW) s (q.signExtend 64)
    ∧ Writes (handler host .REMUW) s (r.signExtend 64)
  /-- The host has every quotient and remainder that it is asked for. -/
  hostDefined : ∀ n h, hostHandler n = some h → h s = handler host n s

lemma regReg_writes (f : U64 → U64 → U64) (hv : f (s.loadReg s.rs1) (s.loadReg s.rs2) = v) :
    Writes (regReg f) s v := ⟨_, rfl, by rw [hv]; rfl⟩

/-- A division writes its quotient, and all ones where there is none. -/
lemma dividing_writes (f : U64 → U64 → Option U64)
    (hv : (f (s.loadReg s.rs1) (s.loadReg s.rs2)).getD (BitVec.allOnes 64) = v) :
    Writes (dividing f) s v := by
  unfold Writes dividing
  cases hf : f (s.loadReg s.rs1) (s.loadReg s.rs2) with
  | some q =>
      rw [hf] at hv
      exact ⟨_, rfl, congrArg (s.iregs.storeReg s.rd) hv⟩
  | none =>
      rw [hf] at hv
      exact ⟨_, rfl, congrArg (s.iregs.storeReg s.rd) hv⟩

lemma wideUnsigned (a : U64) : BitVec.ofInt (64 + 64) a.toNat = a.setWidth 128 := by
  apply BitVec.eq_of_toNat_eq
  rw [BitVec.ofInt_natCast, BitVec.toNat_ofNat, BitVec.toNat_setWidth]

section Results

variable (s)

lemma mul_writes :
    Writes MUL s (mulLow 64 (s.loadReg s.rs1).toInt (s.loadReg s.rs2).toInt) :=
  regReg_writes _ (by rw [mulLow_eq, BitVec.ofInt_toInt, BitVec.ofInt_toInt])

lemma mulw_writes :
    Writes MULW s ((mulLow 32 ((s.loadReg s.rs1).setWidth 32).toInt
      ((s.loadReg s.rs2).setWidth 32).toInt).signExtend 64) :=
  regReg_writes _ (by rw [mulLow_eq, BitVec.ofInt_toInt, BitVec.ofInt_toInt])

lemma mulh_writes :
    Writes MULH s (mulHigh 64 (s.loadReg s.rs1).toInt (s.loadReg s.rs2).toInt) :=
  regReg_writes _ (by
    rw [mulHigh, extractLsb'_eq_sshiftRight, wideProduct_eq]
    rfl)

lemma mulhu_writes :
    Writes MULHU s (mulHigh 64 (s.loadReg s.rs1).toNat (s.loadReg s.rs2).toNat) :=
  regReg_writes _ (by
    rw [mulHigh, extractLsb'_eq_ushiftRight, wideProduct_eq, wideUnsigned, wideUnsigned])

lemma mulhsu_writes :
    Writes MULHSU s (mulHigh 64 (s.loadReg s.rs1).toInt (s.loadReg s.rs2).toNat) :=
  regReg_writes _ (by
    rw [mulHigh, extractLsb'_eq_ushiftRight, wideProduct_eq, wideUnsigned]
    rfl)

lemma div_writes : Writes DIV s (quotSigned (s.loadReg s.rs1) (s.loadReg s.rs2)) :=
  dividing_writes _ (by
    unfold quotSigned
    split_ifs <;> rfl)

lemma rem_writes : Writes REM s (remSigned (s.loadReg s.rs1) (s.loadReg s.rs2)) :=
  regReg_writes _ rfl

lemma divu_writes : Writes DIVU s (quotUnsigned (s.loadReg s.rs1) (s.loadReg s.rs2)) :=
  dividing_writes _ (by
    unfold quotUnsigned
    split_ifs <;> rfl)

lemma remu_writes : Writes REMU s (remUnsigned (s.loadReg s.rs1) (s.loadReg s.rs2)) :=
  regReg_writes _ rfl

lemma divw_writes :
    Writes DIVW s ((quotSigned ((s.loadReg s.rs1).setWidth 32)
      ((s.loadReg s.rs2).setWidth 32)).signExtend 64) :=
  dividing_writes _ (by
    unfold quotSigned
    dsimp only
    -- the source asks for the divisor first
    split_ifs with hb hsrc hover hover
    · rfl
    · rfl
    · exact absurd hsrc.symm hover
    · exact absurd hover.symm hsrc
    · rfl)

lemma remw_writes :
    Writes REMW s ((remSigned ((s.loadReg s.rs1).setWidth 32)
      ((s.loadReg s.rs2).setWidth 32)).signExtend 64) :=
  regReg_writes _ (by
    unfold remSigned
    dsimp only
    -- the source asks for the divisor first
    split_ifs with hb hsrc hover hover
    · rfl
    · rfl
    · exact absurd hsrc.symm hover
    · exact absurd hover.symm hsrc
    · rfl)

lemma divuw_writes :
    Writes DIVUW s ((quotUnsigned ((s.loadReg s.rs1).setWidth 32)
      ((s.loadReg s.rs2).setWidth 32)).signExtend 64) :=
  dividing_writes _ (by
    unfold quotUnsigned
    dsimp only
    split_ifs <;> rfl)

lemma remuw_writes :
    Writes REMUW s ((remUnsigned ((s.loadReg s.rs1).setWidth 32)
      ((s.loadReg s.rs2).setWidth 32)).signExtend 64) :=
  regReg_writes _ (by
    unfold remUnsigned
    dsimp only
    split_ifs <;> rfl)

end Results

/-- **The M extension is exact**, in every state and with any registers. -/
theorem mExact (host : Host) (s : VEmu) :
    MExact host s (s.loadReg s.rs1) (s.loadReg s.rs2) where
  mul := mul_writes s
  mulh := mulh_writes s
  mulhu := mulhu_writes s
  mulhsu := mulhsu_writes s
  mulw := mulw_writes s
  div_rem := ⟨_, _, dividesSigned (by decide) _ _, div_writes s, rem_writes s⟩
  divu_remu := ⟨_, _, dividesUnsigned _ _, divu_writes s, remu_writes s⟩
  divw_remw := ⟨_, _, dividesSigned (by decide) _ _, divw_writes s, remw_writes s⟩
  divuw_remuw := ⟨_, _, dividesUnsigned _ _, divuw_writes s, remuw_writes s⟩
  hostDefined := fun n h hn => by rw [hostHandler_eq host hn]

end VEmu

end Vemu
