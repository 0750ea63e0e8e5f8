import Vemu.Atomics.LoadReserved
import Vemu.Atomics.ReadModifyWrite

/-!
# Faults of the instructions that store atomically

A store-conditional or a read-modify-write should report a misaligned address as the one of a
store, and leave registers, memory and devices alone when it reports anything (`FaultsPrecisely`).

The two families part in the source.  A read-modify-write leaves everything alone but reports a
misaligned address as the one of a load; a store-conditional reports it rightly, and zeroes `rd` before it
looks at what the store reports.  **`faultsPrecisely_iff`**: the first are precise where the address is
aligned, the second where the store is not refused or `rd` holds zero already.
-/

namespace Vemu

open Fallible Riscv

namespace RegFile

/-- Zeroing a register changes nothing exactly if it holds zero. -/
lemma zero_eq_self_iff (r : RegFile) (idx : Reg) :
    r.storeReg idx 0 = r ↔ r.loadReg idx = 0 := by
  constructor
  · intro h
    by_cases hidx : idx = 0
    · rw [hidx]
      exact r.zero
    · rw [← h, r.loadReg_storeReg_self hidx]
  · intro h
    apply eq_of_data
    rw [data_storeReg]
    split_ifs
    · rfl
    · exact Function.update_eq_self_iff.mpr h.symm

end RegFile

namespace VEmu

variable {host : Host} {s s' : VEmu} {e : ReturnException}

/-! ## The specification -/

/-- The instructions that store atomically. -/
inductive AtomicStore
  | sc (w : ReservedWidth)
  | amo (op : RmwOp) (w : AmoWidth)

namespace AtomicStore

def name : AtomicStore → IName
  | .sc .word => .SCW
  | .sc .double => .SCD
  | .amo op w => rmwName op w

def bits : AtomicStore → ℕ
  | .sc w => w.bits
  | .amo _ w => 8 * w.bytes

/-- The address is a multiple of the size of the access. -/
def Aligned (i : AtomicStore) (s : VEmu) : Prop := (s.loadReg s.rs1).toNat % (i.bits / 8) = 0

instance (i : AtomicStore) (s : VEmu) : Decidable (i.Aligned s) := inferInstanceAs (Decidable (_ = _))

end AtomicStore

/-- **What is asked of the faults** of an instruction that stores atomically. -/
structure FaultsPrecisely (host : Host) (i : AtomicStore) (s : VEmu) : Prop where
  misaligned : ¬ i.Aligned s → ∃ s', handler host i.name s = .ok (.StoreAMOAddressMisaligned, s')
  /-- An exception leaves the registers, memory and the devices as they were. -/
  precise : ∀ e s', handler host i.name s = .ok (e, s') → e ≠ .NormalExecutionReturn →
    s'.iregs = s.iregs ∧ s'.bus = s.bus

/-- The address is aligned; or a store-conditional is taken, or has nothing to zero. -/
def FaultsRight (i : AtomicStore) (s : VEmu) : Prop :=
  match i with
  | .amo _ _ => i.Aligned s
  | .sc w => i.Aligned s → s.bus.Takes (s.loadReg s.rs1) w.bits ∨ s.loadReg s.rd = 0

/-! ## Read-modify-writes -/

lemma amo_misaligned {sz : ℕ} (old : U64 → U64) (f : U64 → U64 → U64)
    (h : (s.loadReg s.rs1).toNat % (sz / 8) ≠ 0) : amo sz old f s = .ok (.LoadAddressMisaligned, s) := by
  rw [amo]
  simp only [aligned, h, decide_false, Bool.not_false, if_true]
  rfl

lemma rmw_misaligned {op : RmwOp} {w : AmoWidth} (h : ¬ (AtomicStore.amo op w).Aligned s) :
    handler host (rmwName op w) s = .ok (.LoadAddressMisaligned, s) := by
  cases w with
  | word =>
      obtain ⟨f, hf, -⟩ := handler_rmw_word host op
      rw [hf]
      exact amo_misaligned _ _ h
  | double =>
      rw [handler_rmw_double]
      exact amo_misaligned _ _ h

lemma rmw_faultsPrecisely_iff (op : RmwOp) (w : AmoWidth) :
    FaultsPrecisely host (.amo op w) s ↔ (AtomicStore.amo op w).Aligned s := by
  constructor
  · intro h
    by_contra hmis
    obtain ⟨s', hs'⟩ := h.misaligned hmis
    have hload := @rmw_misaligned host s op w hmis
    cases hs'.symm.trans hload
  · intro haligned
    refine ⟨fun hmis => absurd haligned hmis, fun e s' h he => ?_⟩
    rw [rmw_precise e s' h he]
    exact ⟨rfl, rfl⟩

/-! ## Store-conditionals -/

lemma handler_sc (host : Host) (w : ReservedWidth) :
    handler host (AtomicStore.sc w).name = storeConditional w.bits := by
  cases w <;> rfl

lemma sc_misaligned {w : ReservedWidth} (h : ¬ (AtomicStore.sc w).Aligned s) :
    storeConditional w.bits s = .ok (.StoreAMOAddressMisaligned, s) := by
  have hne : (s.loadReg s.rs1).toNat % (w.bits / 8) ≠ 0 := h
  rw [storeConditional]
  simp only [aligned, hne, decide_false, Bool.not_false, if_true]
  rfl

lemma sc_aligned {w : ReservedWidth} (h : (AtomicStore.sc w).Aligned s) :
    storeConditional w.bits s = s.bus.store (s.loadReg s.rs1) (s.loadReg s.rs2) w.bits >>= fun r =>
      .ok (r.1, ({ s with bus := r.2 }).storeReg s.rd 0) := by
  have heq : (s.loadReg s.rs1).toNat % (w.bits / 8) = 0 := h
  rw [storeConditional]
  simp only [aligned, heq, decide_true, Bool.not_true, Bool.false_eq_true, if_false, store]
  cases s.bus.store (s.loadReg s.rs1) (s.loadReg s.rs2) w.bits <;> rfl

lemma sc_faultsPrecisely_iff (w : ReservedWidth) :
    FaultsPrecisely host (.sc w) s ↔ FaultsRight (.sc w) s := by
  constructor
  · intro h haligned
    by_contra hno
    obtain ⟨ht, hrd⟩ := not_or.mp hno
    have hstop := h.precise .StoreAMOAccessFault (s.storeReg s.rd 0)
      (by rw [handler_sc, sc_aligned haligned, Bus.store_of_not_takes ht]; rfl) (by decide)
    exact hrd ((RegFile.zero_eq_self_iff s.iregs s.rd).mp hstop.1)
  · intro hright
    constructor
    · intro hmis
      exact ⟨s, by rw [handler_sc, sc_misaligned hmis]⟩
    · intro e s' h he
      rw [handler_sc] at h
      by_cases haligned : (AtomicStore.sc w).Aligned s
      · rw [sc_aligned haligned, bind_eq_ok_iff] at h
        obtain ⟨⟨e', bus⟩, hstore, h⟩ := h
        obtain ⟨rfl, rfl⟩ := Prod.mk.inj (Except.ok.inj h)
        rcases hright haligned with ht | hrd
        · exact absurd (Bus.store_of_takes ht hstore) he
        · exact ⟨(RegFile.zero_eq_self_iff s.iregs s.rd).mpr hrd, store_exception hstore he⟩
      · rw [sc_misaligned haligned] at h
        obtain ⟨-, rfl⟩ := Prod.mk.inj (Except.ok.inj h)
        exact ⟨rfl, rfl⟩

/-- **The faults** of the instructions that store atomically, in every state. -/
theorem faultsPrecisely_iff (host : Host) (i : AtomicStore) (s : VEmu) :
    FaultsPrecisely host i s ↔ FaultsRight i s := by
  cases i with
  | sc w => exact sc_faultsPrecisely_iff w
  | amo op w => exact rmw_faultsPrecisely_iff op w

/-! ## A misaligned address, and a store that is refused -/

/-- `sc.w x2, x3, (x2)` to the first register of the core-local interruptor. -/
def conditionallyStoring : VEmu :=
  { onePage 0 clintBase with
    bus := { devices := some ⟨.new, .new, .new false⟩, ramSize := 4096, mmu := onePageMemory 0 }
    currInstr := ⟨.R, .SCW, { Fields.zero with rd := 2, rs1 := 2, rs2 := 3 }, ""⟩ }

/-- The one is reported as the fault of a load, the other zeroes `x2`. -/
theorem not_faultsPrecisely :
    handler (.bare .fuzz) .AMOADDW (addingHart 1) = .ok (.LoadAddressMisaligned, addingHart 1)
      ∧ ¬ FaultsPrecisely (.bare .fuzz) (.amo .ADD .word) (addingHart 1)
      ∧ (handler (.bare .emu) .SCW conditionallyStoring >>= fun r =>
          .ok (r.1, conditionallyStoring.loadReg 2, r.2.loadReg 2))
        = .ok (.StoreAMOAccessFault, clintBase, 0)
      ∧ ¬ FaultsPrecisely (.bare .emu) (.sc .word) conditionallyStoring := by
  refine ⟨?_, ?_, by decide +kernel, ?_⟩
  · exact @rmw_misaligned (.bare .fuzz) (addingHart 1) .ADD .word (by decide)
  · rw [rmw_faultsPrecisely_iff]
    decide
  · rw [sc_faultsPrecisely_iff]
    intro hright
    exact absurd (hright (by decide)) (by decide)

end VEmu

end Vemu
