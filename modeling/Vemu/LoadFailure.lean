import Vemu.Refinement.Step

/-!
# Loads that fail

What a load does when the bus reports an exception.  The loads without sign extension hand it on
and change nothing.  The loads with sign extension are built on top of them, drop what they
report, and extend the sign of whatever the register held before: they report a normal return
for every exception of the bus (**`precise_iff`**).
-/

namespace Vemu

open Fallible

namespace VEmu

variable {host : Host} {s s' : VEmu} {n : IName} {sz : ℕ} {v : U64} {exp : ReturnException}
  {bus : Bus}

/-! ## The family of loads -/

/-- The number of bits that a load asks the bus for. -/
def loadBits : IName → Option ℕ
  | .LB | .LBU => some 8
  | .LH | .LHU => some 16
  | .LW | .LWU => some 32
  | .LD => some 64
  | _ => none

/-- The loads without sign extension, and the one that needs none. -/
def IsUnsigned (n : IName) : Prop := n = .LBU ∨ n = .LHU ∨ n = .LWU ∨ n = .LD

instance (n : IName) : Decidable (IsUnsigned n) := inferInstanceAs (Decidable (_ ∨ _))

/-- The effective address. -/
def effectiveAddr (s : VEmu) : U64 := s.loadReg s.rs1 + s.imm

/-- **A failure is precise**: the handler reports the exception, and the integer registers and
the memory are as they were. -/
def Precise (host : Host) (n : IName) (s : VEmu) (exp : ReturnException) : Prop :=
  ∃ s', handler host n s = .ok (exp, s') ∧ s'.iregs = s.iregs ∧ s'.bus.mmu = s.bus.mmu

/-! ## Failures -/

/-- A load without sign extension hands on what the bus reports. -/
lemma loadUnsigned_failure (h : s.bus.load s.effectiveAddr sz = .ok ((v, exp), bus))
    (hexp : exp ≠ .NormalExecutionReturn) :
    loadUnsigned sz s = .ok (exp, { s with bus := bus }) := by
  rw [effectiveAddr] at h
  simp only [loadUnsigned, load, h, ok_bind, pure_eq_ok]
  rw [if_pos hexp]

/-- A load with sign extension reports a normal return, and extends the sign of what the register
holds. -/
lemma loadSigned_failure {bits : ℕ} (h : s.bus.load s.effectiveAddr sz = .ok ((v, exp), bus))
    (hexp : exp ≠ .NormalExecutionReturn) :
    loadSigned bits (loadUnsigned sz) s
      = normal ({ s with bus := bus }.storeReg s.rd
          (((s.loadReg s.rd).setWidth bits).signExtend 64)) := by
  rw [loadSigned, loadUnsigned_failure h hexp]
  rfl

/-- The memory behind the bus is not changed by a load. -/
lemma mmu_of_load (h : s.bus.load s.effectiveAddr sz = .ok ((v, exp), bus)) :
    bus.mmu = s.bus.mmu := by
  have hload : s.load s.effectiveAddr sz = .ok ((v, exp), { s with bus := bus }) := by
    rw [load, h]
    rfl
  exact (load_keeps hload).2

lemma precise_loadUnsigned (h : s.bus.load s.effectiveAddr sz = .ok ((v, exp), bus))
    (hexp : exp ≠ .NormalExecutionReturn) (hn : handler host n = loadUnsigned sz) :
    Precise host n s exp := by
  refine ⟨{ s with bus := bus }, ?_, rfl, mmu_of_load h⟩
  rw [hn, loadUnsigned_failure h hexp]

lemma not_precise_loadSigned {bits : ℕ}
    (h : s.bus.load s.effectiveAddr sz = .ok ((v, exp), bus))
    (hexp : exp ≠ .NormalExecutionReturn)
    (hn : handler host n = loadSigned bits (loadUnsigned sz)) : ¬ Precise host n s exp := by
  rintro ⟨s', hs', -⟩
  rw [hn, loadSigned_failure h hexp] at hs'
  exact hexp (Prod.mk.inj (Except.ok.inj hs')).1.symm

/-- **When the failure of a load is precise**: the loads that do not extend a sign are precise at
every exception of the bus, the others at none. -/
theorem precise_iff (host : Host) (hn : loadBits n = some sz)
    (h : s.bus.load s.effectiveAddr sz = .ok ((v, exp), bus))
    (hexp : exp ≠ .NormalExecutionReturn) : Precise host n s exp ↔ IsUnsigned n := by
  cases n <;> simp only [loadBits, Option.some.injEq, reduceCtorEq] at hn <;> subst hn
  case LBU | LHU | LWU | LD =>
    exact iff_of_true (precise_loadUnsigned h hexp rfl) (by decide)
  case LB | LH | LW =>
    exact iff_of_false (not_precise_loadSigned h hexp rfl) (by decide)

/-! ## A byte that was never written -/

/-- The load of byte zero of an uninitialised memory into `x1`, which holds 255. -/
def loadingRaw (n : IName) : VEmu :=
  { onePage 0 0 with
    bus := { devices := none, ramSize := 4096, mmu := .uniform 4096 (permRaw ||| permWrite) }
    iregs := RegFile.new.storeReg 1 255
    currInstr := ⟨.I, n, { Fields.zero with rd := 1 }, ""⟩ }

lemma load_loadingRaw (n : IName) :
    (loadingRaw n).bus.load (loadingRaw n).effectiveAddr 8
      = .ok ((0, .UninitializedMemoryAccess), (loadingRaw n).bus) := by
  have hload : (MMU.uniform 4096 (permRaw ||| permWrite)).load 0 8
      = .ok (0, .UninitializedMemoryAccess) := by decide +kernel
  change ((MMU.uniform 4096 (permRaw ||| permWrite)).load 0 8 >>= _) = _
  rw [hload]
  rfl

/-- `LBU` reports the exception. -/
theorem precise_lbu :
    Precise (.bare .fuzz) .LBU (loadingRaw .LBU) .UninitializedMemoryAccess :=
  (precise_iff (.bare .fuzz) rfl (load_loadingRaw .LBU) (by decide)).mpr (by decide)

/-- `LB` does not, and turns the 255 of its register into -1. -/
theorem not_precise_lb :
    (∃ s', handler (.bare .fuzz) .LB (loadingRaw .LB) = .ok (.NormalExecutionReturn, s')
        ∧ s'.loadReg 1 = -1)
      ∧ ¬ Precise (.bare .fuzz) .LB (loadingRaw .LB) .UninitializedMemoryAccess := by
  refine ⟨?_, not_precise_loadSigned (load_loadingRaw .LB) (by decide) rfl⟩
  refine ⟨_, loadSigned_failure (load_loadingRaw .LB) (by decide), ?_⟩
  decide

end VEmu

end Vemu
