import Vemu.Trap
import Vemu.Lib.BitFields

/-!
# Control registers around a trap

Entering a handler and returning from it are sequences of reads and writes of single registers.
None of these registers is the supervisor's view of the interrupt enables, so each sequence is
one update per register (`supervisorEntry_eq`, `machineEntry_eq`, `returnStatus_eq`), and what it
does to a status register is said bit by bit.
-/

namespace Vemu

open BitFields

/-! ## Registers -/

namespace Csrs

variable {c : Csrs} {addr : CsrAddr} {v : U64}

@[simp] lemma reg_set_self (c : Csrs) (addr : CsrAddr) (v : U64) : (c.set addr v).reg addr = v :=
  Function.update_self ..

lemma reg_set_of_ne {a : CsrAddr} (h : a ≠ addr) : (c.set addr v).reg a = c.reg a :=
  Function.update_of_ne h ..

@[simp] lemma set_set (c : Csrs) (addr : CsrAddr) (v v' : U64) :
    (c.set addr v).set addr v' = c.set addr v' := by
  simp [set, Function.update_idem]

lemma storeCsr_of_ne (h : addr ≠ sie) : c.storeCsr addr v = c.set addr v := if_neg h

lemma loadCsr_of_ne (h : addr ≠ sie) : c.loadCsr addr = c.reg addr := if_neg h

lemma setBits_of_ne (h : addr ≠ sie) (bits : U64) :
    c.setBits addr bits = c.set addr (c.reg addr ||| bits) := by
  rw [setBits, storeCsr_of_ne h, loadCsr_of_ne h]

lemma keepBits_of_ne (h : addr ≠ sie) (mask : U64) :
    c.keepBits addr mask = c.set addr (c.reg addr &&& mask) := by
  rw [keepBits, storeCsr_of_ne h, loadCsr_of_ne h]

lemma bit_of_ne (h : addr ≠ sie) (pos : ℕ) : c.bit addr pos = (c.reg addr).getLsbD pos := by
  rw [bit, loadCsr_of_ne h]
  exact ushiftRight_and_one_ne_zero (by decide) _ _

end Csrs

namespace VEmu

variable {c : Csrs} {status : CsrAddr} {enable saved : ℕ} {x : U64} {prev : Mode}

/-! ## The masks -/

lemma getLsbD_bit32 {pos : ℕ} (hpos : pos < 32) (i : ℕ) :
    (bit32 pos).getLsbD i = decide (i = pos) := by
  rw [bit32, BitVec.getLsbD_setWidth, getLsbD_one_shiftLeft]
  by_cases h : i = pos
  · simp [h, hpos, show pos < 64 by omega]
  · simp [h]

/-- The mask that keeps the other bits keeps the lower half only. -/
lemma getLsbD_allBut32 (pos i : ℕ) :
    (allBut32 pos).getLsbD i = (decide (i < 32) && !decide (i = pos)) := by
  rw [allBut32, BitVec.getLsbD_setWidth, BitVec.getLsbD_not, getLsbD_one_shiftLeft]
  by_cases h : i < 32
  · simp [h, show i < 64 by omega]
  · simp [h]

lemma getLsbD_eq_false_of_lt {n : ℕ} (h : x.toNat < 2 ^ n) {i : ℕ} (hi : n ≤ i) :
    x.getLsbD i = false := by
  rw [← BitVec.testBit_toNat]
  exact Nat.testBit_lt_two_pow (lt_of_lt_of_le h (Nat.pow_le_pow_right (by decide) hi))

/-- The lower half of a word holds all of it. -/
lemma lt_of_getLsbD (h : ∀ i, 32 ≤ i → x.getLsbD i = false) : x.toNat < 2 ^ 32 := by
  refine Nat.lt_pow_two_of_testBit _ fun i hi => ?_
  rw [BitVec.testBit_toNat]
  exact h i hi

/-! ## Entering -/

/-- A status register with the enable bit saved and cleared. -/
def enteredStatus (x : U64) (enable saved : ℕ) : U64 :=
  (if x.getLsbD enable then x ||| bit32 saved else x &&& allBut32 saved) &&& allBut32 enable

lemma enterStatus_eq (h : status ≠ sie) (enable saved : ℕ) :
    enterStatus c status enable saved = c.set status (enteredStatus (c.reg status) enable saved) := by
  rw [enterStatus, saveBit, Csrs.bit_of_ne h, enteredStatus]
  by_cases hx : (c.reg status).getLsbD enable = true
  · rw [if_pos hx, if_pos hx, Csrs.setBits_of_ne h, Csrs.keepBits_of_ne h, Csrs.reg_set_self,
      Csrs.set_set]
  · rw [if_neg hx, if_neg hx, Csrs.keepBits_of_ne h, Csrs.keepBits_of_ne h, Csrs.reg_set_self,
      Csrs.set_set]

/-- Saving and clearing the enable bit also clears the upper half. -/
lemma getLsbD_enteredStatus (hsaved : saved < 32) (hne : saved ≠ enable) (i : ℕ) :
    (enteredStatus x enable saved).getLsbD i
      = (decide (i < 32)
          && if i = saved then x.getLsbD enable else !decide (i = enable) && x.getLsbD i) := by
  rw [enteredStatus, BitVec.getLsbD_and, getLsbD_allBut32]
  by_cases hi : i < 32
  · by_cases hs : i = saved
    · subst hs
      cases hx : x.getLsbD enable <;>
        simp [hi, hne, getLsbD_bit32 hsaved, getLsbD_allBut32]
    · cases hx : x.getLsbD enable <;>
        simp [hi, hs, getLsbD_bit32 hsaved, getLsbD_allBut32, Bool.and_comm]
  · simp [hi]

/-- The supervisor's status register in a handler. -/
def supervisorStatus (prev : Mode) (x : U64) : U64 :=
  let x := enteredStatus x sstatusSiePos sstatusSpiePos
  if prev = .User then x &&& allBut32 sstatusSppPos else x ||| bit32 sstatusSppPos

/-- The machine's status register in a handler. -/
def machineStatus (prev : Mode) (x : U64) : U64 :=
  let x := enteredStatus x mstatusMiePos mstatusMpiePos
  match prev with
  | .User => x &&& (allBut32 11 &&& allBut32 12)
  | .Supervisor => (x &&& allBut32 12) ||| bit32 11
  | .Machine => x ||| (bit32 11 ||| bit32 12)

lemma supervisorEntry_eq (c : Csrs) (prev : Mode) (exceptionPc cause : U64) :
    supervisorEntry c prev exceptionPc cause
      = (((c.set sepc (exceptionPc &&& allBut32 0)).set scause cause).set stval 0).set sstatus
          (supervisorStatus prev (c.reg sstatus)) := by
  have hreg : (((c.set sepc (exceptionPc &&& allBut32 0)).set scause cause).set stval 0).reg sstatus
      = c.reg sstatus := by
    rw [Csrs.reg_set_of_ne (by decide), Csrs.reg_set_of_ne (by decide),
      Csrs.reg_set_of_ne (by decide)]
  have hsstatus : sstatus ≠ sie := by decide
  simp only [supervisorEntry, Csrs.storeCsr_of_ne (show sepc ≠ sie by decide),
    Csrs.storeCsr_of_ne (show scause ≠ sie by decide),
    Csrs.storeCsr_of_ne (show stval ≠ sie by decide), enterStatus_eq hsstatus, hreg,
    supervisorStatus]
  by_cases hp : prev = .User
  · rw [if_pos hp, if_pos hp, Csrs.keepBits_of_ne hsstatus, Csrs.reg_set_self, Csrs.set_set]
  · rw [if_neg hp, if_neg hp, Csrs.setBits_of_ne hsstatus, Csrs.reg_set_self, Csrs.set_set]

lemma machineEntry_eq (c : Csrs) (prev : Mode) (exceptionPc cause : U64) :
    machineEntry c prev exceptionPc cause
      = (((c.set mepc (exceptionPc &&& allBut32 0)).set mcause cause).set mtval 0).set mstatus
          (machineStatus prev (c.reg mstatus)) := by
  have hreg : (((c.set mepc (exceptionPc &&& allBut32 0)).set mcause cause).set mtval 0).reg mstatus
      = c.reg mstatus := by
    rw [Csrs.reg_set_of_ne (by decide), Csrs.reg_set_of_ne (by decide),
      Csrs.reg_set_of_ne (by decide)]
  have hmstatus : mstatus ≠ sie := by decide
  have hmask : (((0b11 : U32) <<< 11).setWidth 64 : U64) = bit32 11 ||| bit32 12 := by decide
  have hunmask : ((~~~((0b11 : U32) <<< 11)).setWidth 64 : U64) = allBut32 11 &&& allBut32 12 := by
    decide
  simp only [machineEntry, hmask, hunmask, Csrs.storeCsr_of_ne (show mepc ≠ sie by decide),
    Csrs.storeCsr_of_ne (show mcause ≠ sie by decide),
    Csrs.storeCsr_of_ne (show mtval ≠ sie by decide), enterStatus_eq hmstatus, hreg, machineStatus]
  cases prev with
  | User => simp only [Csrs.keepBits_of_ne hmstatus, Csrs.reg_set_self, Csrs.set_set]
  | Supervisor =>
      simp only [Csrs.keepBits_of_ne hmstatus, Csrs.setBits_of_ne hmstatus, Csrs.reg_set_self,
        Csrs.set_set]
  | Machine => simp only [Csrs.setBits_of_ne hmstatus, Csrs.reg_set_self, Csrs.set_set]

/-- **The supervisor's status register in a handler, bit by bit.** -/
lemma getLsbD_supervisorStatus (prev : Mode) (x : U64) (i : ℕ) :
    (supervisorStatus prev x).getLsbD i
      = if i = sstatusSppPos then !decide (prev = .User)
        else decide (i < 32)
          && if i = sstatusSpiePos then x.getLsbD sstatusSiePos
            else !decide (i = sstatusSiePos) && x.getLsbD i := by
  have hentered := @getLsbD_enteredStatus sstatusSiePos sstatusSpiePos x (by decide) (by decide) i
  by_cases hp : prev = .User
  · simp only [supervisorStatus, if_pos hp, BitVec.getLsbD_and, hentered, getLsbD_allBut32]
    by_cases hi : i = sstatusSppPos
    · simp only [hi, if_true, decide_true, Bool.not_true, Bool.and_false, hp]
    · simp only [hi, if_false, decide_false, Bool.not_false, Bool.and_true]
      cases decide (i < 32) <;> simp
  · simp only [supervisorStatus, if_neg hp, BitVec.getLsbD_or, hentered,
      getLsbD_bit32 (show sstatusSppPos < 32 by decide)]
    by_cases hi : i = sstatusSppPos
    · simp only [hi, if_true, decide_true, Bool.or_true, hp, decide_false, Bool.not_false]
    · simp only [hi, if_false, decide_false, Bool.or_false]

/-- **The machine's status register in a handler, bit by bit.** -/
lemma getLsbD_machineStatus (prev : Mode) (x : U64) (i : ℕ) :
    (machineStatus prev x).getLsbD i
      = if i = 11 then !decide (prev = .User)
        else if i = 12 then decide (prev = .Machine)
        else decide (i < 32)
          && if i = mstatusMpiePos then x.getLsbD mstatusMiePos
            else !decide (i = mstatusMiePos) && x.getLsbD i := by
  have hentered := @getLsbD_enteredStatus mstatusMiePos mstatusMpiePos x (by decide) (by decide) i
  have h11 : (11 : ℕ) < 32 := by decide
  have h12 : (12 : ℕ) < 32 := by decide
  cases prev with
  | User =>
      simp only [machineStatus, BitVec.getLsbD_and, hentered, getLsbD_allBut32]
      by_cases hi : i = 11
      · simp [hi]
      · by_cases hi' : i = 12
        · simp [hi']
        · cases decide (i < 32) <;> simp [hi, hi']
  | Supervisor =>
      simp only [machineStatus, BitVec.getLsbD_or, BitVec.getLsbD_and, hentered, getLsbD_allBut32,
        getLsbD_bit32 h11]
      by_cases hi : i = 11
      · simp [hi]
      · by_cases hi' : i = 12
        · simp [hi']
        · cases decide (i < 32) <;> simp [hi, hi']
  | Machine =>
      simp only [machineStatus, BitVec.getLsbD_or, hentered, getLsbD_bit32 h11, getLsbD_bit32 h12]
      by_cases hi : i = 11
      · simp [hi]
      · by_cases hi' : i = 12
        · simp [hi']
        · simp [hi, hi']

/-! ## Returning -/

/-- A status register after the return from a handler. -/
def returnedStatus (x : U64) (enable saved : ℕ) (prevMode : U64) : U64 :=
  ((if x.getLsbD saved then x ||| (1 : U64) <<< enable else x &&& ~~~((1 : U64) <<< enable))
      ||| (1 : U64) <<< saved) &&& ~~~prevMode

lemma natCast_one_shiftLeft (n : ℕ) : ((1 <<< n : ℕ) : U64) = (1 : U64) <<< n := by
  apply BitVec.eq_of_toNat_eq
  rw [BitVec.natCast_eq_ofNat, BitVec.toNat_ofNat, BitVec.toNat_shiftLeft]
  rfl

lemma returnStatus_eq (h : status ≠ sie) (enable saved : ℕ) (prevMode : U64) :
    returnStatus c status enable saved prevMode
      = c.set status (returnedStatus (c.reg status) enable saved prevMode) := by
  simp only [returnStatus, Csrs.bit_of_ne h, returnedStatus, natCast_one_shiftLeft]
  by_cases hx : (c.reg status).getLsbD saved = true
  · simp only [if_pos hx, Csrs.setBits_of_ne h, Csrs.keepBits_of_ne h, Csrs.reg_set_self,
      Csrs.set_set]
  · simp only [if_neg hx, Csrs.setBits_of_ne h, Csrs.keepBits_of_ne h, Csrs.reg_set_self,
      Csrs.set_set]

/-- **A status register after a return, bit by bit.** -/
lemma getLsbD_returnedStatus {prevMode : U64} {i : ℕ} (hi : i < 64) :
    (returnedStatus x enable saved prevMode).getLsbD i
      = (!prevMode.getLsbD i
          && if i = saved then true else if i = enable then x.getLsbD saved else x.getLsbD i) := by
  have hcopy : (if x.getLsbD saved then x ||| (1 : U64) <<< enable
        else x &&& ~~~((1 : U64) <<< enable)).getLsbD i
      = if i = enable then x.getLsbD saved else x.getLsbD i := by
    cases hx : x.getLsbD saved with
    | true =>
        rw [if_pos rfl, BitVec.getLsbD_or, getLsbD_one_shiftLeft]
        by_cases he : i = enable
        · rw [if_pos he, decide_eq_true hi, decide_eq_true he]
          simp
        · rw [if_neg he, decide_eq_false he]
          simp
    | false =>
        rw [if_neg Bool.false_ne_true, BitVec.getLsbD_and, BitVec.getLsbD_not,
          getLsbD_one_shiftLeft]
        by_cases he : i = enable
        · rw [if_pos he, decide_eq_true hi, decide_eq_true he]
          simp
        · rw [if_neg he, decide_eq_true hi, decide_eq_false he]
          simp
  rw [returnedStatus, BitVec.getLsbD_and, BitVec.getLsbD_or, BitVec.getLsbD_not, hcopy,
    getLsbD_one_shiftLeft, decide_eq_true hi, Bool.true_and, Bool.true_and, Bool.and_comm]
  by_cases hs : i = saved
  · rw [if_pos hs, decide_eq_true hs, Bool.or_true]
  · rw [if_neg hs, decide_eq_false hs, Bool.or_false]

end VEmu

end Vemu
