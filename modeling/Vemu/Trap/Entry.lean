import Vemu.Refinement.Step
import Vemu.Trap.Status

/-!
# Entering a handler, exactly

What a trap should do to the registers of the level it is taken to (`ExactEntry`): the registers
written are exact over 64 bits, and every other bit and register is left alone.

The masks of the source clear the upper half of what they are applied to.  So an entry is exact
only where the program counter, the handler's address and the status register have no upper half
(**`trap_exact_iff`**).  The mode field of a handler's register is two bits wide, of which the
source clears the lower one; the theorem is given for both widths.
-/

namespace Vemu

open Fallible BitFields

namespace VEmu

variable {build : Build} {s s' : VEmu} {e : ReturnException} {x : U64}

/-! ## Levels -/

/-- The registers of a level that takes traps, and the fields of its status register: the enable
bit, the saved enable bit, and the previous mode by its first bit and its width. -/
structure TrapLevel where
  mode : Mode
  epc : CsrAddr
  cause : CsrAddr
  tval : CsrAddr
  tvec : CsrAddr
  status : CsrAddr
  enable : ℕ
  saved : ℕ
  prevMode : ℕ
  prevModeBits : ℕ

def supervisorLevel : TrapLevel where
  mode := .Supervisor
  epc := sepc
  cause := scause
  tval := stval
  tvec := stvec
  status := sstatus
  enable := 1
  saved := 5
  prevMode := 8
  prevModeBits := 1

def machineLevel : TrapLevel where
  mode := .Machine
  epc := mepc
  cause := mcause
  tval := mtval
  tvec := mtvec
  status := mstatus
  enable := 3
  saved := 7
  prevMode := 11
  prevModeBits := 2

/-- The number of a mode in the status registers. -/
def modeNumber : Mode → ℕ
  | .User => 0
  | .Supervisor => 1
  | .Machine => 3

/-- The exceptions with a cause of the instruction set.  The other ones are the emulator's own. -/
def IsStandard (e : ReturnException) : Prop := e.code.toNat < 16

instance (e : ReturnException) : Decidable (IsStandard e) := inferInstanceAs (Decidable (_ < _))

/-- The supervisor takes the traps that are delegated to it, from below machine mode. -/
def targetLevel (s : VEmu) (e : ReturnException) : TrapLevel :=
  if (s.mode = .User ∨ s.mode = .Supervisor) ∧ (s.csrs.reg medeleg).getLsbD e.code.toNat = true then
    supervisorLevel
  else machineLevel

/-- The word with its lowest bits cleared. -/
def clearLow (bits : ℕ) (x : U64) : U64 := x >>> bits <<< bits

/-- **An exact entry** of a level, where the mode field of the handler's register has the given
number of bits. -/
structure ExactEntry (modeBits : ℕ) (l : TrapLevel) (e : ReturnException) (s s' : VEmu) : Prop where
  mode : s'.mode = l.mode
  epc : s'.csrs.reg l.epc = clearLow 1 s.pc
  handler : s'.pc + 4 = clearLow modeBits (s.csrs.reg l.tvec)
  cause : s'.csrs.reg l.cause = e.code.setWidth 64
  tval : s'.csrs.reg l.tval = 0
  saved : (s'.csrs.reg l.status).getLsbD l.saved = (s.csrs.reg l.status).getLsbD l.enable
  enable : (s'.csrs.reg l.status).getLsbD l.enable = false
  prevMode : (s'.csrs.reg l.status).extractLsb' l.prevMode l.prevModeBits
    = BitVec.ofNat l.prevModeBits (modeNumber s.mode)
  status : ∀ i < 64, i ≠ l.saved → i ≠ l.enable → ¬ (l.prevMode ≤ i ∧ i < l.prevMode + l.prevModeBits) →
    (s'.csrs.reg l.status).getLsbD i = (s.csrs.reg l.status).getLsbD i
  others : ∀ a, a ∉ [l.epc, l.cause, l.tval, l.status] → s'.csrs.reg a = s.csrs.reg a

/-- A trap is exact: it is taken to its level, with an exact entry. -/
def ExactTrap (modeBits : ℕ) (build : Build) (s : VEmu) (e : ReturnException) : Prop :=
  ∃ s', s.trap build e = .ok s' ∧ ExactEntry modeBits (s.targetLevel e) e s s'

/-- **The condition**: what the masks are applied to has no upper half. -/
structure LowerHalf (l : TrapLevel) (s : VEmu) : Prop where
  pc : s.pc.toNat < 2 ^ 32
  tvec : (s.csrs.reg l.tvec).toNat < 2 ^ 32
  status : (s.csrs.reg l.status).toNat < 2 ^ 32

/-! ## Clearing bits -/

lemma getLsbD_clearLow (bits : ℕ) (x : U64) {i : ℕ} (hi : i < 64) :
    (clearLow bits x).getLsbD i = (!decide (i < bits) && x.getLsbD i) := by
  rw [clearLow, BitVec.getLsbD_shiftLeft, BitVec.getLsbD_ushiftRight, decide_eq_true hi,
    Bool.true_and]
  by_cases hb : i < bits
  · rw [decide_eq_true hb, Bool.not_true, Bool.false_and, Bool.false_and]
  · rw [show bits + (i - bits) = i by omega]

/-- The source's mask clears the lowest bit only if there is no upper half. -/
lemma and_allBut32_eq_iff (x : U64) : x &&& allBut32 0 = clearLow 1 x ↔ x.toNat < 2 ^ 32 := by
  constructor
  · intro h
    refine lt_of_getLsbD fun i hi => ?_
    by_cases hlt : i < 64
    · have hbit := congrArg (·.getLsbD i) h
      simp only [BitVec.getLsbD_and, getLsbD_allBut32, getLsbD_clearLow 1 x hlt] at hbit
      rw [decide_eq_false (show ¬ i < 32 by omega), decide_eq_false (show ¬ i < 1 by omega)] at hbit
      simpa using hbit.symm
    · exact BitVec.getLsbD_of_ge x i (by omega)
  · intro h
    apply BitVec.eq_of_getLsbD_eq
    intro i hi
    rw [BitVec.getLsbD_and, getLsbD_allBut32, getLsbD_clearLow 1 x hi]
    by_cases hlt : i < 32
    · by_cases h0 : i = 0
      · simp [h0]
      · simp [hlt, h0]
    · rw [getLsbD_eq_false_of_lt h (by omega)]
      simp

/-- Clearing the second bit as well makes a difference if it is set. -/
lemma clearLow_one_eq_two_iff (x : U64) : clearLow 1 x = clearLow 2 x ↔ x.getLsbD 1 = false := by
  constructor
  · intro h
    have hbit := congrArg (·.getLsbD 1) h
    simp only [getLsbD_clearLow 1 x (show 1 < 64 by decide),
      getLsbD_clearLow 2 x (show 1 < 64 by decide)] at hbit
    simpa using hbit
  · intro h
    apply BitVec.eq_of_getLsbD_eq
    intro i hi
    rw [getLsbD_clearLow 1 x hi, getLsbD_clearLow 2 x hi]
    by_cases h1 : i = 1
    · subst h1
      rw [h]
      simp
    · rw [decide_eq_decide.mpr (show i < 1 ↔ i < 2 by omega)]

/-- The handler's address comes out right if there is no upper half, and nothing in the part of
the mode field that is not cleared. -/
lemma and_allBut32_eq_two_iff (x : U64) :
    x &&& allBut32 0 = clearLow 2 x ↔ x.toNat < 2 ^ 32 ∧ x.getLsbD 1 = false := by
  constructor
  · intro h
    -- neither side has bit 1, and bits from 32 on are the same with one bit cleared or two
    have h1 : x.getLsbD 1 = false := by
      have hbit := congrArg (·.getLsbD 1) h
      simp only [BitVec.getLsbD_and, getLsbD_allBut32,
        getLsbD_clearLow 2 x (show 1 < 64 by decide)] at hbit
      simpa using hbit
    exact ⟨(and_allBut32_eq_iff x).mp (h.trans ((clearLow_one_eq_two_iff x).mpr h1).symm), h1⟩
  · rintro ⟨hx, h1⟩
    exact ((and_allBut32_eq_iff x).mpr hx).trans ((clearLow_one_eq_two_iff x).mpr h1)

/-! ## One level -/

/-- What the trap does to a level: the registers are written one after the other, the status
register bit by bit. -/
structure Entered (l : TrapLevel) (e : ReturnException) (s s' : VEmu) : Prop where
  mode : s'.mode = l.mode
  handler : s'.pc + 4 = s.csrs.reg l.tvec &&& allBut32 0
  csrs : ∃ status, s'.csrs = (((s.csrs.set l.epc (s.pc &&& allBut32 0)).set l.cause
      (e.code.setWidth 64)).set l.tval 0).set l.status status
    ∧ status.extractLsb' l.prevMode l.prevModeBits
        = BitVec.ofNat l.prevModeBits (modeNumber s.mode)
    ∧ ∀ i, ¬ (l.prevMode ≤ i ∧ i < l.prevMode + l.prevModeBits) →
        status.getLsbD i = (decide (i < 32)
          && if i = l.saved then (s.csrs.reg l.status).getLsbD l.enable
            else !decide (i = l.enable) && (s.csrs.reg l.status).getLsbD i)

/-- The registers and fields of a level are different ones, and none of them is a view. -/
structure TrapLevel.WellFormed (l : TrapLevel) : Prop where
  nodup : [l.epc, l.cause, l.tval, l.status].Nodup
  notView : l.epc ≠ sie ∧ l.status ≠ sie
  saved : l.saved < 32 ∧ l.saved ≠ l.enable
    ∧ ¬ (l.prevMode ≤ l.saved ∧ l.saved < l.prevMode + l.prevModeBits)
  enable : l.enable < 32 ∧ ¬ (l.prevMode ≤ l.enable ∧ l.enable < l.prevMode + l.prevModeBits)
  prevMode : l.prevMode + l.prevModeBits ≤ 32

lemma wellFormed_supervisor : supervisorLevel.WellFormed := by
  constructor <;> decide

lemma wellFormed_machine : machineLevel.WellFormed := by
  constructor <;> decide

/-- An entry writes the cause. -/
lemma Entered.reg_cause {l : TrapLevel} (hl : l.WellFormed) (h : Entered l e s s') :
    s'.csrs.reg l.cause = e.code.setWidth 64 := by
  obtain ⟨status, hcsrs, -, -⟩ := h.csrs
  obtain ⟨-, ⟨hct, hcs⟩, -⟩ : (l.epc ≠ l.cause ∧ l.epc ≠ l.tval
      ∧ l.epc ≠ l.status) ∧ (l.cause ≠ l.tval ∧ l.cause ≠ l.status) ∧ l.tval ≠ l.status := by
    simpa using hl.nodup
  rw [hcsrs, Csrs.reg_set_of_ne hcs, Csrs.reg_set_of_ne hct, Csrs.reg_set_self]

/-- **An entry of a level is exact** exactly if the masks have nothing above to clear. -/
lemma Entered.exact_iff {l : TrapLevel} (hl : l.WellFormed) (h : Entered l e s s') (modeBits : ℕ) :
    ExactEntry modeBits l e s s'
      ↔ s.pc.toNat < 2 ^ 32 ∧ s.csrs.reg l.tvec &&& allBut32 0 = clearLow modeBits (s.csrs.reg l.tvec)
        ∧ (s.csrs.reg l.status).toNat < 2 ^ 32 := by
  obtain ⟨status, hcsrs, hprev, hbits⟩ := h.csrs
  obtain ⟨⟨hec, het, hes⟩, -, hts⟩ : (l.epc ≠ l.cause ∧ l.epc ≠ l.tval
      ∧ l.epc ≠ l.status) ∧ (l.cause ≠ l.tval ∧ l.cause ≠ l.status) ∧ l.tval ≠ l.status := by
    simpa using hl.nodup
  have hreg : s'.csrs.reg l.status = status := by rw [hcsrs, Csrs.reg_set_self]
  have hepc : s'.csrs.reg l.epc = s.pc &&& allBut32 0 := by
    rw [hcsrs, Csrs.reg_set_of_ne hes, Csrs.reg_set_of_ne het, Csrs.reg_set_of_ne hec,
      Csrs.reg_set_self]
  constructor
  · intro hexact
    refine ⟨?_, h.handler.symm.trans hexact.handler, lt_of_getLsbD fun i hi => ?_⟩
    · rw [← and_allBut32_eq_iff, ← hepc, hexact.epc]
    · by_cases hlt : i < 64
      · have hp := hl.prevMode
        have hs := hl.saved.1
        have he := hl.enable.1
        have hout : ¬ (l.prevMode ≤ i ∧ i < l.prevMode + l.prevModeBits) := by omega
        rw [← hexact.status i hlt (by omega) (by omega) hout, hreg, hbits i hout,
          decide_eq_false (by omega), Bool.false_and]
      · exact BitVec.getLsbD_of_ge _ i (by omega)
  · rintro ⟨hpc, htvec, hstatus⟩
    refine
      { mode := h.mode
        epc := hepc.trans ((and_allBut32_eq_iff s.pc).mpr hpc)
        handler := h.handler.trans htvec
        cause := h.reg_cause hl
        tval := ?_
        saved := ?_
        enable := ?_
        prevMode := by rw [hreg, hprev]
        status := ?_
        others := ?_ }
    · rw [hcsrs, Csrs.reg_set_of_ne hts, Csrs.reg_set_self]
    · rw [hreg, hbits _ hl.saved.2.2, decide_eq_true hl.saved.1, if_pos rfl, Bool.true_and]
    · rw [hreg, hbits _ hl.enable.2, if_neg (Ne.symm hl.saved.2.1)]
      simp
    · intro i hi hsaved henable hout
      rw [hreg, hbits i hout, if_neg hsaved, decide_eq_false henable]
      by_cases hlt : i < 32
      · simp [hlt]
      · rw [getLsbD_eq_false_of_lt hstatus (by omega)]
        simp
    · intro a ha
      simp only [List.mem_cons, List.not_mem_nil, or_false, not_or] at ha
      rw [hcsrs, Csrs.reg_set_of_ne ha.2.2.2, Csrs.reg_set_of_ne ha.2.2.1,
        Csrs.reg_set_of_ne ha.2.1, Csrs.reg_set_of_ne ha.1]

/-! ## Both levels -/

lemma standard_lt (he : IsStandard e) : (e.code.setWidth 64 : U64).toNat < 64 := by
  cases e <;> revert he <;> decide

lemma entered_supervisor (hmode : s.mode = .User ∨ s.mode = .Supervisor) (e : ReturnException) :
    Entered supervisorLevel e s
      (s.enterSupervisor (e.code.setWidth 64) (s.csrs.loadCsr stvec &&& allBut32 0)) where
  mode := rfl
  handler := by
    simp only [enterSupervisor, BitVec.sub_add_cancel]
    rfl
  csrs := by
    refine ⟨supervisorStatus s.mode (s.csrs.reg sstatus), supervisorEntry_eq .., ?_, ?_⟩
    · apply BitVec.eq_of_getLsbD_eq
      intro i hi
      obtain rfl : i = 0 := Nat.lt_one_iff.mp hi
      rw [BitVec.getLsbD_extractLsb', getLsbD_supervisorStatus]
      rcases hmode with h | h <;> rw [h] <;> rfl
    · intro i hi
      have hne : i ≠ sstatusSppPos := by
        rintro rfl
        exact hi (by decide)
      rw [getLsbD_supervisorStatus, if_neg hne]
      rfl

lemma entered_machine (s : VEmu) (e : ReturnException) :
    Entered machineLevel e s
      (s.enterMachine (e.code.setWidth 64) (s.csrs.loadCsr mtvec &&& allBut32 0)) where
  mode := rfl
  handler := by
    simp only [enterMachine, BitVec.sub_add_cancel]
    rfl
  csrs := by
    refine ⟨machineStatus s.mode (s.csrs.reg mstatus), machineEntry_eq .., ?_, ?_⟩
    · apply BitVec.eq_of_getLsbD_eq
      intro i hi
      have hi2 : i < 2 := hi
      rw [BitVec.getLsbD_extractLsb', getLsbD_machineStatus]
      interval_cases i <;> cases s.mode <;> rfl
    · intro i hi
      have hi' : ¬ (11 ≤ i ∧ i < 13) := hi
      rw [getLsbD_machineStatus, if_neg (by omega), if_neg (by omega)]
      rfl

/-- **A trap is taken to its level.** -/
theorem trap_entered (hb : build ≠ .fuzz) (he : IsStandard e) (s : VEmu) :
    ∃ s', s.trap build e = .ok s' ∧ Entered (s.targetLevel e) e s s' := by
  have hcode : (e.code.setWidth 64 : U64).toNat = e.code.toNat := by
    rw [BitVec.toNat_setWidth, Nat.mod_eq_of_lt (by have := e.code.isLt; omega)]
  have hdeleg : s.delegated (e.code.setWidth 64)
      = .ok ((s.csrs.reg medeleg).getLsbD e.code.toNat) := by
    rw [delegated, if_pos (standard_lt he), Csrs.bit_of_ne (by decide), hcode]
  have hmode : (s.mode = .User ∨ s.mode = .Supervisor) ↔ s.mode ≠ .Machine := by
    cases s.mode <;> decide
  simp only [trap, if_neg hb, hdeleg, ok_bind]
  by_cases h : (s.mode = .User ∨ s.mode = .Supervisor)
      ∧ (s.csrs.reg medeleg).getLsbD e.code.toNat = true
  · rw [if_pos (⟨hmode.mp h.1, h.2⟩ : _ ∧ _), targetLevel, if_pos h]
    exact ⟨_, rfl, entered_supervisor h.1 e⟩
  · rw [if_neg (fun h' => h ⟨hmode.mpr h'.1, h'.2⟩), targetLevel, if_neg h]
    exact ⟨_, rfl, entered_machine s e⟩

lemma wellFormed_targetLevel (s : VEmu) (e : ReturnException) : (s.targetLevel e).WellFormed := by
  rw [targetLevel]
  split_ifs
  · exact wellFormed_supervisor
  · exact wellFormed_machine

lemma exactTrap_iff (hb : build ≠ .fuzz) (he : IsStandard e) (modeBits : ℕ) :
    ExactTrap modeBits build s e
      ↔ s.pc.toNat < 2 ^ 32
        ∧ s.csrs.reg (s.targetLevel e).tvec &&& allBut32 0
          = clearLow modeBits (s.csrs.reg (s.targetLevel e).tvec)
        ∧ (s.csrs.reg (s.targetLevel e).status).toNat < 2 ^ 32 := by
  obtain ⟨s', htrap, hentered⟩ := trap_entered hb he s
  rw [← hentered.exact_iff (wellFormed_targetLevel s e), ExactTrap, htrap]
  simp

/-- **When a trap is exact.**  With a mode field of two bits, exactly if the program counter, the
handler's register and the status register have no upper half and the second mode bit is clear;
with a mode field of one bit, exactly if they have no upper half. -/
theorem trap_exact_iff (hb : build ≠ .fuzz) (he : IsStandard e) (s : VEmu) :
    (ExactTrap 2 build s e ↔ LowerHalf (s.targetLevel e) s
        ∧ (s.csrs.reg (s.targetLevel e).tvec).getLsbD 1 = false)
      ∧ (ExactTrap 1 build s e ↔ LowerHalf (s.targetLevel e) s) := by
  have hlower : LowerHalf (s.targetLevel e) s ↔ s.pc.toNat < 2 ^ 32
      ∧ (s.csrs.reg (s.targetLevel e).tvec).toNat < 2 ^ 32
      ∧ (s.csrs.reg (s.targetLevel e).status).toNat < 2 ^ 32 :=
    ⟨fun h => ⟨h.pc, h.tvec, h.status⟩, fun h => ⟨h.1, h.2.1, h.2.2⟩⟩
  rw [exactTrap_iff hb he, exactTrap_iff hb he, and_allBut32_eq_iff, and_allBut32_eq_two_iff, hlower]
  exact ⟨by tauto, Iff.rfl⟩

/-! ## An illegal instruction -/

/-- An emulator with devices, in user mode and with all control registers zero but the status
register of the machine. -/
def userHart (pc status : U64) : VEmu :=
  { onePage 0 0 with
    bus := { devices := some ⟨.new, .new, .new false⟩, ramSize := 4096, mmu := onePageMemory 0 }
    csrs := ⟨Function.update (fun _ => 0) mstatus status⟩
    mode := .User, pc := pc }

/-- With an address and a status in the lower half, the trap is exact. -/
theorem trap_exact_userHart : ExactTrap 2 .emu (userHart 0x1000 8) .IllegalInstruction :=
  (trap_exact_iff (by decide) (by decide) _).1.mpr
    ⟨⟨by decide, by decide, by decide⟩, by decide⟩

/-- An address or a bit of the status register in the upper half is lost. -/
theorem not_trap_exact_upper_half :
    ¬ ExactTrap 2 .emu (userHart 0x100000000 0) .IllegalInstruction
      ∧ ¬ ExactTrap 2 .emu (userHart 0x1000 0x200000000) .IllegalInstruction := by
  constructor
  · rw [exactTrap_iff (by decide) (by decide)]
    decide
  · rw [exactTrap_iff (by decide) (by decide)]
    decide

end VEmu

end Vemu
