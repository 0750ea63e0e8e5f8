import Vemu.Trap.Entry

/-!
# Returning from a handler

A return from a handler undoes the entry: the program counter, the mode and the enable bit are
those of before.  For the supervisor this holds of every trap (**`sret_inverse`**).  For the
machine it holds of the traps from below machine mode only, since `MRET` does not know the number
of machine mode (**`mret_inverse_iff`**).
-/

namespace Vemu

open Fallible BitFields

namespace VEmu

variable {build : Build} {s s₁ s₂ : VEmu} {e : ReturnException} {l : TrapLevel} {x : U64}

/-- **The hart is back where it was.**  The loop of `run` adds four to the program counter. -/
structure Resumed (l : TrapLevel) (s s' : VEmu) : Prop where
  pc : s'.pc + 4 = s.pc
  mode : s'.mode = s.mode
  enable : (s'.csrs.reg l.status).getLsbD l.enable = (s.csrs.reg l.status).getLsbD l.enable
  saved : (s'.csrs.reg l.status).getLsbD l.saved = true
  prevMode : (s'.csrs.reg l.status).extractLsb' l.prevMode l.prevModeBits = 0

/-- The trap is taken, and wherever the return is executed with the control registers that the
trap left, it goes through and resumes. -/
def Inverse (ret : Handler) (l : TrapLevel) (build : Build) (e : ReturnException) (s : VEmu) : Prop :=
  ∃ s₁, s.trap build e = .ok s₁ ∧ ∀ s₂, s₂.csrs = s₁.csrs →
    ∃ s₃, ret s₂ = .ok (.NormalExecutionReturn, s₃) ∧ Resumed l s s₃

/-! ## What the entry left -/

lemma clearLow_one_of_even (h : x.getLsbD 0 = false) : clearLow 1 x = x := by
  apply BitVec.eq_of_getLsbD_eq
  intro i hi
  rw [getLsbD_clearLow 1 x hi]
  by_cases h0 : i = 0
  · rw [h0, h]
    rfl
  · rw [decide_eq_false (by omega), Bool.not_false, Bool.true_and]

/-- The address of the trap is kept as it is. -/
lemma Entered.epc (hl : l.WellFormed) (h : Entered l e s s₁) (heven : s.pc.getLsbD 0 = false)
    (hpc : s.pc.toNat < 2 ^ 32) : s₁.csrs.loadCsr l.epc = s.pc := by
  obtain ⟨status, hcsrs, -, -⟩ := h.csrs
  obtain ⟨⟨hec, het, hes⟩, -⟩ : (l.epc ≠ l.cause ∧ l.epc ≠ l.tval ∧ l.epc ≠ l.status)
      ∧ (l.cause ≠ l.tval ∧ l.cause ≠ l.status) ∧ l.tval ≠ l.status := by
    simpa using hl.nodup
  rw [Csrs.loadCsr_of_ne hl.notView.1, hcsrs, Csrs.reg_set_of_ne hes, Csrs.reg_set_of_ne het,
    Csrs.reg_set_of_ne hec, Csrs.reg_set_self, (and_allBut32_eq_iff s.pc).mpr hpc,
    clearLow_one_of_even heven]

/-- A return to the mode of before resumes. -/
lemma Entered.resumed (hl : l.WellFormed) (h : Entered l e s s₁) (heven : s.pc.getLsbD 0 = false)
    (hpc : s.pc.toNat < 2 ^ 32) (hsame : s₂.csrs = s₁.csrs) :
    Resumed l s { s₂ with
      pc := s₂.csrs.loadCsr l.epc - 4, mode := s.mode
      csrs := returnStatus s₂.csrs l.status l.enable l.saved
        (mask 64 l.prevMode l.prevModeBits) } := by
  have hepc := h.epc hl heven hpc
  obtain ⟨status, hcsrs, -, hbits⟩ := h.csrs
  have hreg : s₂.csrs.reg l.status = status := by rw [hsame, hcsrs, Csrs.reg_set_self]
  have hstatus : (returnStatus s₂.csrs l.status l.enable l.saved
        (mask 64 l.prevMode l.prevModeBits)).reg l.status
      = returnedStatus status l.enable l.saved (mask 64 l.prevMode l.prevModeBits) := by
    rw [returnStatus_eq hl.notView.2, Csrs.reg_set_self, hreg]
  have hs := hl.saved
  have he := hl.enable
  refine ⟨?_, rfl, ?_, ?_, ?_⟩
  · rw [← hsame] at hepc
    rw [hepc, BitVec.sub_add_cancel]
  · rw [hstatus, getLsbD_returnedStatus (by omega), getLsbD_mask (by omega), decide_eq_false he.2,
      if_neg (Ne.symm hs.2.1), if_pos rfl, hbits _ hs.2.2, decide_eq_true hs.1, if_pos rfl]
    rfl
  · rw [hstatus, getLsbD_returnedStatus (by omega), getLsbD_mask (by omega), decide_eq_false hs.2.2,
      if_pos rfl]
    rfl
  · rw [hstatus]
    apply BitVec.eq_of_getLsbD_eq
    intro i hi
    have hp := hl.prevMode
    rw [BitVec.getLsbD_extractLsb', getLsbD_returnedStatus (by omega), getLsbD_mask (by omega),
      decide_eq_true (show l.prevMode ≤ l.prevMode + i ∧ l.prevMode + i
        < l.prevMode + l.prevModeBits by omega)]
    simp

/-! ## The machine -/

/-- `MRET` finds the mode that the entry saved. -/
lemma Entered.previousMode (h : Entered machineLevel e s s₁) :
    (s₁.csrs.loadCsr mstatus >>> 11) &&& 0b11 = BitVec.ofNat 64 (modeNumber s.mode) := by
  obtain ⟨status, hcsrs, hprev, -⟩ := h.csrs
  have hreg : s₁.csrs.loadCsr mstatus = status := by
    rw [Csrs.loadCsr_of_ne (by decide), hcsrs]
    exact Csrs.reg_set_self ..
  have hones : (0b11 : U64) = (BitVec.allOnes 2).setWidth 64 := by decide
  have hprev' : status.extractLsb' 11 2 = BitVec.ofNat 2 (modeNumber s.mode) := hprev
  rw [hreg, hones, ushiftRight_and_allOnes, hprev']
  cases s.mode <;> rfl

/-- The mode that `MRET` decodes, and the one it cannot. -/
lemma mretMode_modeNumber (m : Mode) :
    mretMode (BitVec.ofNat 64 (modeNumber m))
      = if m = .Machine then .error .assertFailed else .ok m := by
  cases m <;> rfl

/-- **When `MRET` undoes a trap to the machine**: exactly if the trap came from below machine
mode. -/
theorem mret_inverse_iff (hb : build ≠ .fuzz) (he : IsStandard e)
    (hlevel : ¬ ((s.mode = .User ∨ s.mode = .Supervisor)
      ∧ (s.csrs.reg medeleg).getLsbD e.code.toNat = true))
    (heven : s.pc.getLsbD 0 = false) (hpc : s.pc.toNat < 2 ^ 32) :
    Inverse MRET machineLevel build e s ↔ s.mode ≠ .Machine := by
  obtain ⟨s₁, htrap, hentered⟩ := trap_entered hb he s
  rw [targetLevel, if_neg hlevel] at hentered
  have hmode : ∀ s₂ : VEmu, s₂.csrs = s₁.csrs →
      mretMode ((s₂.csrs.loadCsr mstatus >>> 11) &&& 0b11)
        = if s.mode = .Machine then .error .assertFailed else .ok s.mode := by
    intro s₂ hsame
    rw [hsame, hentered.previousMode, mretMode_modeNumber]
  constructor
  · rintro ⟨s₁', htrap', hret⟩ hm
    obtain rfl : s₁ = s₁' := Except.ok.inj (htrap.symm.trans htrap')
    obtain ⟨s₃, hs₃, -⟩ := hret s₁ rfl
    rw [MRET, hmode s₁ rfl, if_pos hm] at hs₃
    cases hs₃
  · intro hm
    refine ⟨s₁, htrap, fun s₂ hsame => ?_⟩
    have hret : MRET s₂ = normal { s₂ with
        pc := s₂.csrs.loadCsr mepc - 4, mode := s.mode
        csrs := returnStatus s₂.csrs mstatus 3 7 (mask 64 11 2) } := by
      rw [MRET, hmode s₂ hsame, if_neg hm]
      rfl
    exact ⟨_, hret, hentered.resumed wellFormed_machine heven hpc hsame⟩

/-! ## The supervisor -/

/-- **`SRET` undoes every trap to the supervisor**, and neither of the two changes an integer
register or a register of the machine's traps. -/
theorem sret_inverse (hb : build ≠ .fuzz) (he : IsStandard e)
    (hmode : s.mode = .User ∨ s.mode = .Supervisor)
    (hdeleg : (s.csrs.reg medeleg).getLsbD e.code.toNat = true)
    (heven : s.pc.getLsbD 0 = false) (hpc : s.pc.toNat < 2 ^ 32) :
    Inverse SRET supervisorLevel build e s
      ∧ ∀ s₁, s.trap build e = .ok s₁ → s₁.iregs = s.iregs ∧
        ∀ s₂ s₃ r, s₂.csrs = s₁.csrs → SRET s₂ = .ok (r, s₃) → s₃.iregs = s₂.iregs ∧
          ∀ a ∈ [mepc, mcause, mstatus], s₃.csrs.reg a = s.csrs.reg a := by
  obtain ⟨s₁, htrap, hentered⟩ := trap_entered hb he s
  rw [targetLevel, if_pos ⟨hmode, hdeleg⟩] at hentered
  obtain ⟨status, hcsrs, hprev, -⟩ := hentered.csrs
  have hmret : ∀ s₂ : VEmu, s₂.csrs = s₁.csrs → SRET s₂ = normal { s₂ with
      pc := s₂.csrs.loadCsr sepc - 4, mode := s.mode
      csrs := returnStatus s₂.csrs sstatus 1 5 (mask 64 8 1) } := by
    intro s₂ hsame
    have hbit : s₂.csrs.bit sstatus 8 = decide (s.mode = .Supervisor) := by
      have hreg : s₂.csrs.reg sstatus = status := by
        rw [hsame, hcsrs]
        exact Csrs.reg_set_self ..
      have hfield := congrArg (·.getLsbD 0) hprev
      simp only [BitVec.getLsbD_extractLsb', supervisorLevel] at hfield
      rw [Csrs.bit_of_ne (by decide), hreg]
      rcases hmode with h | h <;> rw [h] at hfield ⊢ <;> simpa [modeNumber] using hfield
    rw [SRET, hbit]
    rcases hmode with h | h <;> rw [h] <;> rfl
  refine ⟨⟨s₁, htrap, fun s₂ hsame => ?_⟩, ?_⟩
  · exact ⟨_, hmret s₂ hsame, hentered.resumed wellFormed_supervisor heven hpc hsame⟩
  · intro s₁' htrap'
    obtain rfl : s₁ = s₁' := Except.ok.inj (htrap.symm.trans htrap')
    obtain ⟨csrs, mode, pc, rfl⟩ := trap_frame htrap
    refine ⟨rfl, fun s₂ s₃ r hsame hret => ?_⟩
    rw [hmret s₂ hsame] at hret
    obtain ⟨-, rfl⟩ := Prod.mk.inj (Except.ok.inj hret)
    refine ⟨rfl, fun a ha => ?_⟩
    have hother : a ≠ sepc ∧ a ≠ scause ∧ a ≠ stval ∧ a ≠ sstatus := by
      simp only [List.mem_cons, List.not_mem_nil, or_false] at ha
      rcases ha with rfl | rfl | rfl <;> decide
    obtain ⟨hepc, hcause, htval, hstatus⟩ := hother
    have hset : (returnStatus s₂.csrs sstatus 1 5 (mask 64 8 1)).reg a = s₂.csrs.reg a := by
      rw [returnStatus_eq (by decide), Csrs.reg_set_of_ne hstatus]
    rw [hset, hsame, hcsrs]
    exact (Csrs.reg_set_of_ne hstatus).trans ((Csrs.reg_set_of_ne htval).trans
      ((Csrs.reg_set_of_ne hcause).trans (Csrs.reg_set_of_ne hepc)))

/-! ## Three traps -/

/-- A trap from user mode to the machine is undone. -/
theorem mret_inverse_userHart :
    Inverse MRET machineLevel .emu .IllegalInstruction (userHart 0x1000 8) :=
  (mret_inverse_iff (by decide) (by decide) (by decide) (by decide) (by decide)).mpr (by decide)

/-- A trap from machine mode is not: `MRET` fails its assertion. -/
theorem not_mret_inverse_machine :
    ∃ s₁, ({ userHart 0x1000 8 with mode := .Machine }).trap .emu .IllegalInstruction = .ok s₁
      ∧ MRET s₁ = .error .assertFailed
      ∧ ¬ Inverse MRET machineLevel .emu .IllegalInstruction
        { userHart 0x1000 8 with mode := .Machine } := by
  obtain ⟨s₁, htrap, hentered⟩ := @trap_entered .emu _ (by decide)
    (show IsStandard .IllegalInstruction by decide) { userHart 0x1000 8 with mode := .Machine }
  have hfail : MRET s₁ = .error .assertFailed := by
    rw [MRET, Entered.previousMode hentered]
    rfl
  refine ⟨s₁, htrap, hfail, ?_⟩
  rintro ⟨s₁', htrap', hret⟩
  obtain rfl : s₁ = s₁' := Except.ok.inj (htrap.symm.trans htrap')
  obtain ⟨s₃, hs₃, -⟩ := hret s₁ rfl
  rw [hfail] at hs₃
  cases hs₃

/-- A hart in user mode that delegates illegal instructions, with the supervisor's interrupts
enabled. -/
def delegatingHart : VEmu :=
  { userHart 0x1000 0 with
    csrs := ⟨Function.update (Function.update (fun _ => 0) medeleg 4) sstatus 2⟩ }

/-- A trap from user mode to the supervisor is undone. -/
theorem sret_inverse_delegating :
    Inverse SRET supervisorLevel .emu .IllegalInstruction delegatingHart :=
  (sret_inverse (by decide) (by decide) (Or.inl rfl) (by decide) (by decide) (by decide)).1

end VEmu

end Vemu
