import Mathlib.Data.List.Find
import Vemu.Trap.Control

/-!
# Which interrupt, and where it goes

An interrupt that is pending and enabled is let through by the rules of its target level: an
interrupt that is not delegated targets the machine, which is open from below and, in machine
mode, when `MSTATUS.MIE` is set; a delegated one targets the supervisor, which is open from user
mode and, in supervisor mode, when `SSTATUS.SIE` is set.  `arbitrated` is the first interrupt let
through, in the order of priority.

`check_pending_interrupt` asks for the global enable bit of the current mode first and for the
delegation not at all, and its mask for the bit it clears has 32 bits.  **`arbitrates_iff`** says
for which states it comes out right all the same.

`take_interrupt` tests the delegation with a shift by its cause, in which bit 63 is set.  So the
test is undefined for every interrupt (**`not_delivers`**).  What it is worth otherwise is said by
`honours_iff`: whatever the shift gives, the cause and the vector are right, and the level is right
exactly if the shift happens to give the bit of `MIDELEG`.
-/

namespace Vemu

open Fallible

namespace VEmu

variable {s s' : VEmu}

/-! ## The first of a list -/

/-- Where one test implies another, the same element is found first with both exactly if the one
found with the weaker test passes the stronger. -/
lemma find?_eq_find?_iff {α : Type*} {p q : α → Bool} (hqp : ∀ x, q x = true → p x = true) :
    ∀ l : List α, l.find? q = l.find? p ↔ ∀ x, l.find? p = some x → q x = true
  | [] => by simp
  | a :: l => by
      cases hp : p a with
      | true =>
          cases hq : q a with
          | true => simp [hp, hq]
          | false =>
              simp only [List.find?_cons, hp, hq, Option.some.injEq]
              constructor
              · intro h
                have hqa := List.find?_some h
                rw [hq] at hqa
                cases hqa
              · intro h
                have hqa := h a rfl
                rw [hq] at hqa
                cases hqa
      | false =>
          have hq : q a = false := by
            cases hq : q a with
            | false => rfl
            | true => rw [hqp a hq] at hp; cases hp
          simpa [List.find?_cons, hp, hq] using find?_eq_find?_iff hqp l

/-! ## Arbitration -/

/-- Pending and enabled. -/
def pendingEnabled (s : VEmu) (pos : ℕ) : Bool :=
  (s.csrs.reg mie).getLsbD pos && (s.csrs.reg mip).getLsbD pos

/-- Let through by the target level. -/
def globallyEnabled (s : VEmu) (pos : ℕ) : Bool :=
  if (s.csrs.reg mideleg).getLsbD pos then
    s.mode = .User || (s.mode = .Supervisor && (s.csrs.reg sstatus).getLsbD sstatusSiePos)
  else s.mode ≠ .Machine || (s.csrs.reg mstatus).getLsbD mstatusMiePos

/-- The interrupt that should be taken. -/
def arbitrated (s : VEmu) : Option (ℕ × Interrupt) :=
  interruptOrder.find? fun p => s.pendingEnabled p.1 && s.globallyEnabled p.1

/-- The first interrupt that is pending and enabled. -/
def firstPending (s : VEmu) : Option (ℕ × Interrupt) :=
  interruptOrder.find? fun p => s.pendingEnabled p.1

def interruptOf : Option (ℕ × Interrupt) → Interrupt
  | none => .NoInterrupt
  | some p => p.2

/-- The interrupt that should be taken is returned, its bit of `MIP` is cleared, and every other
bit of every register is left alone. -/
def Arbitrates (s : VEmu) : Prop :=
  ∃ s', s.checkPendingInterrupt = .ok (interruptOf s.arbitrated, s') ∧
    ∀ addr n, (s'.csrs.reg addr).getLsbD n
      = ((s.csrs.reg addr).getLsbD n
          && !decide (addr = mip ∧ s.arbitrated.map Prod.fst = some n))

/-- The serial port has nothing to report. -/
def UartQuiet (s : VEmu) : Prop :=
  ∃ d, s.bus.devices = some d ∧ d.uart.interrupting = false

lemma interruptOrder_pos {p : ℕ × Interrupt} (h : p ∈ interruptOrder) : p.1 < 32 := by
  revert p
  decide

lemma interruptOrder_ne {p : ℕ × Interrupt} (h : p ∈ interruptOrder) : p.2 ≠ .NoInterrupt := by
  revert p
  decide

lemma interruptOrder_inj {p q : ℕ × Interrupt} (hp : p ∈ interruptOrder) (hq : q ∈ interruptOrder)
    (h : p.2 = q.2) : p = q := by
  have hinj : ∀ p ∈ interruptOrder, ∀ q ∈ interruptOrder, p.2 = q.2 → p = q := by decide
  exact hinj p hp q hq h

/-- Different entries of the order, or none, are different interrupts. -/
lemma interruptOf_inj {x y : Option (ℕ × Interrupt)} (hx : ∀ p, x = some p → p ∈ interruptOrder)
    (hy : ∀ p, y = some p → p ∈ interruptOrder) (h : interruptOf x = interruptOf y) : x = y := by
  cases x with
  | none =>
      cases y with
      | none => rfl
      | some q => exact absurd h.symm (interruptOrder_ne (hy q rfl))
  | some p =>
      cases y with
      | none => exact absurd h (interruptOrder_ne (hx p rfl))
      | some q => rw [interruptOrder_inj (hx p rfl) (hy q rfl) h]

lemma arbitrated_mem {p : ℕ × Interrupt} (h : s.arbitrated = some p) : p ∈ interruptOrder :=
  List.mem_of_find?_eq_some h

lemma firstPending_mem {p : ℕ × Interrupt} (h : s.firstPending = some p) : p ∈ interruptOrder :=
  List.mem_of_find?_eq_some h

/-- What should be taken is what comes first, unless the target of that is closed. -/
lemma arbitrated_eq_iff :
    s.arbitrated = s.firstPending
      ↔ ∀ p, s.firstPending = some p → s.globallyEnabled p.1 = true := by
  refine (find?_eq_find?_iff (fun x hx => (Bool.and_eq_true_iff.mp hx).1) _).trans ?_
  refine forall_congr' fun p => forall_congr' fun hp => ?_
  have hpending : s.pendingEnabled p.1 = true := by simpa using List.find?_some hp
  rw [hpending, Bool.true_and]

/-! ### What the code does -/

/-- The registers after a bit of `MIP` was cleared. -/
def clearPending (c : Csrs) : Option (ℕ × Interrupt) → Csrs
  | none => c
  | some p => c.set mip (c.reg mip &&& allBut32 p.1)

lemma uartIsInterrupting_quiet (h : s.UartQuiet) :
    s.bus.uartIsInterrupting = .ok (false, s.bus) := by
  obtain ⟨⟨clint, plic, ⟨mem, irq⟩⟩, hd, hq⟩ := h
  obtain rfl : irq = false := hq
  simp only [Bus.uartIsInterrupting, hd, UART.isInterrupting]
  rw [← hd]

lemma pollUart_quiet (h : s.UartQuiet) : s.pollUart = .ok s := by
  rw [pollUart, uartIsInterrupting_quiet h, ok_bind]
  rfl

lemma pending_iff {pos : ℕ} (hpos : pos < 32) :
    (s.csrs.loadCsr mie &&& s.csrs.loadCsr mip) &&& bit32 pos ≠ 0
      ↔ s.pendingEnabled pos = true := by
  rw [Csrs.loadCsr_of_ne (by decide), Csrs.loadCsr_of_ne (by decide)]
  constructor
  · intro h
    by_contra hoff
    apply h
    apply BitVec.eq_of_getLsbD_eq
    intro i hi
    rw [BitVec.getLsbD_and, BitVec.getLsbD_and, getLsbD_bit32 hpos]
    by_cases hip : i = pos
    · subst hip
      simpa [pendingEnabled] using hoff
    · simp [hip]
  · intro h hzero
    have hbit := congrArg (·.getLsbD pos) hzero
    rw [pendingEnabled] at h
    simp [getLsbD_bit32 hpos, h] at hbit

lemma find?_pending :
    (interruptOrder.find? fun p =>
      (s.csrs.loadCsr mie &&& s.csrs.loadCsr mip) &&& bit32 p.1 ≠ 0) = s.firstPending := by
  refine List.find?_congr fun p hp => ?_
  rw [Bool.eq_iff_iff, decide_eq_true_iff]
  exact pending_iff (interruptOrder_pos hp)

/-- **`check_pending_interrupt` with a quiet serial port.** -/
lemma checkPendingInterrupt_eq (h : s.UartQuiet) :
    s.checkPendingInterrupt
      = if s.interruptsOff then .ok (.NoInterrupt, s)
        else .ok (interruptOf s.firstPending,
          { s with csrs := clearPending s.csrs s.firstPending }) := by
  unfold checkPendingInterrupt
  split_ifs with hoff
  · rfl
  · rw [pollUart_quiet h, ok_bind]
    dsimp only
    rw [find?_pending]
    cases hfirst : s.firstPending with
    | none => rfl
    | some p =>
        obtain ⟨pos, i⟩ := p
        dsimp only
        rw [Csrs.keepBits_of_ne (by decide)]
        rfl

/-! ### Where it comes out right -/

/-- The masks that make up for what `check_pending_interrupt` does not look at: in machine mode
the first pending interrupt is not one of the supervisor's, a closed supervisor has none of the
machine's pending, and where an interrupt is found `MIP` has no bit in its upper half. -/
structure RoutesRight (s : VEmu) : Prop where
  machine : s.mode = .Machine → s.interruptsOff = false →
    ∀ p, s.firstPending = some p → (s.csrs.reg mideleg).getLsbD p.1 = false
  supervisor : s.mode = .Supervisor → s.interruptsOff = true →
    ∀ p ∈ interruptOrder, s.pendingEnabled p.1 = true → (s.csrs.reg mideleg).getLsbD p.1 = true
  upper : s.interruptsOff = false → s.firstPending.isSome = true → (s.csrs.reg mip).toNat < 2 ^ 32

lemma interruptsOff_eq (s : VEmu) :
    s.interruptsOff = ((s.mode = .Machine && !(s.csrs.reg mstatus).getLsbD mstatusMiePos)
      || (s.mode = .Supervisor && !(s.csrs.reg sstatus).getLsbD sstatusSiePos)) := by
  rw [interruptsOff, Csrs.bit_of_ne (by decide), Csrs.bit_of_ne (by decide)]

/-- Where the current mode is open, only the machine in machine mode keeps anything out. -/
lemma globallyEnabled_of_on (hon : s.interruptsOff = false) (pos : ℕ) :
    s.globallyEnabled pos = true
      ↔ (s.mode = .Machine → (s.csrs.reg mideleg).getLsbD pos = false) := by
  rw [interruptsOff_eq] at hon
  unfold globallyEnabled
  cases hmode : s.mode with
  | User => split_ifs <;> simp
  | Supervisor =>
      rw [hmode] at hon
      split_ifs <;> simp_all
  | Machine =>
      rw [hmode] at hon
      split_ifs <;> simp_all

/-- Where it is closed, only the machine, from supervisor mode, lets anything through. -/
lemma globallyEnabled_of_off (hoff : s.interruptsOff = true) (pos : ℕ) :
    s.globallyEnabled pos = true
      ↔ s.mode = .Supervisor ∧ (s.csrs.reg mideleg).getLsbD pos = false := by
  rw [interruptsOff_eq] at hoff
  unfold globallyEnabled
  cases hmode : s.mode with
  | User =>
      rw [hmode] at hoff
      simp at hoff
  | Supervisor =>
      rw [hmode] at hoff
      split_ifs <;> simp_all
  | Machine =>
      rw [hmode] at hoff
      split_ifs <;> simp_all

/-- In a closed mode nothing is returned, which is right if nothing should be. -/
lemma arbitrates_off (hquiet : s.UartQuiet) (hoff : s.interruptsOff = true) :
    s.Arbitrates ↔ s.arbitrated = none := by
  rw [Arbitrates, checkPendingInterrupt_eq hquiet, if_pos hoff]
  constructor
  · rintro ⟨s', h, -⟩
    refine interruptOf_inj (fun p => arbitrated_mem) (by simp) ?_
    exact (Prod.mk.inj (Except.ok.inj h)).1.symm
  · intro h
    exact ⟨s, by rw [h]; rfl, by simp [h]⟩

/-- In an open mode the first pending interrupt is returned, and the upper half of `MIP` is lost. -/
lemma arbitrates_on (hquiet : s.UartQuiet) (hon : s.interruptsOff = false) :
    s.Arbitrates ↔ s.arbitrated = s.firstPending
      ∧ (s.firstPending.isSome = true → (s.csrs.reg mip).toNat < 2 ^ 32) := by
  rw [Arbitrates, checkPendingInterrupt_eq hquiet, if_neg (by simp [hon])]
  constructor
  · rintro ⟨s', h, hregs⟩
    obtain ⟨hint, rfl⟩ := Prod.mk.inj (Except.ok.inj h)
    have harb : s.firstPending = s.arbitrated :=
      interruptOf_inj (fun p => firstPending_mem) (fun p => arbitrated_mem) hint
    refine ⟨harb.symm, fun hsome => lt_of_getLsbD fun n hn => ?_⟩
    obtain ⟨p, hp⟩ := Option.isSome_iff_exists.mp hsome
    have hbit := hregs mip n
    have hpos := interruptOrder_pos (firstPending_mem hp)
    rw [← harb, hp, clearPending, Csrs.reg_set_self, BitVec.getLsbD_and, getLsbD_allBut32] at hbit
    simpa [show ¬ n < 32 by omega, show ¬ p.1 = n by omega] using hbit.symm
  · rintro ⟨harb, hupper⟩
    refine ⟨_, by rw [harb], fun addr n => ?_⟩
    rw [harb]
    cases hfirst : s.firstPending with
    | none => simp [clearPending]
    | some p =>
        have hlow := hupper (by rw [hfirst]; rfl)
        dsimp only [clearPending]
        by_cases haddr : addr = mip
        · rw [haddr, Csrs.reg_set_self, BitVec.getLsbD_and, getLsbD_allBut32]
          by_cases hn : n < 32
          · simp [hn, eq_comm]
          · simp [getLsbD_eq_false_of_lt hlow (show 32 ≤ n by omega)]
        · rw [Csrs.reg_set_of_ne haddr]
          simp [haddr]

/-- **Interrupt arbitration**, with a serial port that is not interrupting, follows the privilege
rules exactly in the states with `RoutesRight`. -/
theorem arbitrates_iff (hquiet : s.UartQuiet) : s.Arbitrates ↔ s.RoutesRight := by
  cases hoff : s.interruptsOff with
  | true =>
      rw [arbitrates_off hquiet hoff, arbitrated, List.find?_eq_none]
      constructor
      · intro h
        refine ⟨by simp [hoff], fun hmode _ p hp hpending => ?_, by simp [hoff]⟩
        by_contra hdeleg
        have henabled : s.globallyEnabled p.1 = true :=
          (globallyEnabled_of_off hoff p.1).mpr ⟨hmode, by simpa using hdeleg⟩
        exact h p hp (by simp [hpending, henabled])
      · intro h p hp henabled
        obtain ⟨hpending, henabled⟩ := Bool.and_eq_true_iff.mp henabled
        obtain ⟨hmode, hdeleg⟩ := (globallyEnabled_of_off hoff p.1).mp henabled
        have := h.supervisor hmode hoff p hp hpending
        rw [hdeleg] at this
        cases this
  | false =>
      rw [arbitrates_on hquiet hoff, arbitrated_eq_iff]
      constructor
      · rintro ⟨henabled, hupper⟩
        refine ⟨fun hmode _ p hp => ?_, by simp [hoff], fun _ => hupper⟩
        exact (globallyEnabled_of_on hoff p.1).mp (henabled p hp) hmode
      · intro h
        refine ⟨fun p hp => ?_, h.upper hoff⟩
        exact (globallyEnabled_of_on hoff p.1).mpr fun hmode => h.machine hmode hoff p hp

/-- An external interrupt of the machine, in user mode, is arbitrated. -/
theorem arbitrates_interruptedHart : Point.interruptedHart.Arbitrates := by
  refine (arbitrates_iff ⟨⟨.new, .new, .new false⟩, rfl, rfl⟩).mpr ⟨?_, ?_, ?_⟩
  · intro hmode
    exact absurd hmode (by decide)
  · intro hmode
    exact absurd hmode (by decide)
  · decide

/-- A hart in the given mode with the given interrupt bits pending and enabled, and both global
enable bits set. -/
def pendingHart (mode : Mode) (bits delegated : U64) : VEmu :=
  { userHart 0x1000 0 with
    mode := mode
    csrs := ⟨fun a => if a = mie ∨ a = mip then bits
      else if a = mideleg then delegated
      else if a = mstatus then 8
      else if a = sstatus then 2
      else 0⟩ }

/-- A delegated software interrupt is returned in machine mode, where it should stay pending. -/
theorem not_arbitrates_delegated : ¬ (pendingHart .Machine 2 2).Arbitrates := by
  rintro ⟨s', h, -⟩
  have hview : ((pendingHart .Machine 2 2).checkPendingInterrupt >>= fun r => .ok r.1)
      = .ok .SupervisorSoftwareInterrupt := by decide +kernel
  have hnone : (pendingHart .Machine 2 2).arbitrated = none := by decide +kernel
  rw [h, hnone] at hview
  cases hview

/-! ## Delivery -/

/-- The level that an interrupt should enter. -/
def interruptLevel (s : VEmu) (i : Interrupt) : Mode :=
  if s.mode ≠ .Machine ∧ (s.csrs.reg mideleg).getLsbD i.code.toNat then .Supervisor else .Machine

def causeRegister (mode : Mode) : CsrAddr := if mode = .Supervisor then scause else mcause

def vectorRegister (mode : Mode) : CsrAddr := if mode = .Supervisor then stvec else mtvec

/-- The base of a vector register, and in vectored mode the entry of the interrupt. -/
def vectorEntry (tvec : U64) (i : Interrupt) : U64 :=
  (tvec &&& ~~~1) + (if tvec.getLsbD 0 then 4 * i.code else 0)

/-- An interrupt has entered the level that `MIDELEG` says, at its entry there and with its
cause.  The loop of `run` adds four to the program counter before the next fetch. -/
structure HonoursMideleg (s s' : VEmu) (i : Interrupt) : Prop where
  level : s'.mode = s.interruptLevel i
  cause : s'.csrs.reg (causeRegister s'.mode) = (1 : U64) <<< 63 + i.code
  handler : s'.pc + 4 = vectorEntry (s.csrs.reg (vectorRegister s'.mode)) i

/-- The interrupt is taken, with no undefined shift on the way, and `MIDELEG` is honoured. -/
def Delivers (s : VEmu) (i : Interrupt) : Prop :=
  ∃ s', s.takeInterrupt i = .ok s' ∧ HonoursMideleg s s' i

/-- **No interrupt is delivered as `MIDELEG` says**: its cause is no shift count. -/
theorem not_delivers (s : VEmu) (i : Interrupt) : ¬ s.Delivers i := by
  rintro ⟨s', h, -⟩
  rw [takeInterrupt_eq] at h
  cases h

/-- An external interrupt of the supervisor, delegated by `MIDELEG` and found in user mode. -/
theorem not_delivers_delegated :
    ∃ s, (pendingHart .User 0x200 0x200).checkPendingInterrupt
        = .ok (.SupervisorExternalInterrupt, s)
      ∧ s.interruptLevel .SupervisorExternalInterrupt = .Supervisor
      ∧ s.takeInterrupt .SupervisorExternalInterrupt = .error .badShift
      ∧ ¬ s.Delivers .SupervisorExternalInterrupt := by
  refine ⟨_, rfl, by decide, takeInterrupt_eq _ _, ?_⟩
  rintro ⟨s', h, -⟩
  rw [takeInterrupt_eq] at h
  cases h

/-! ### Whatever the shift gives -/

lemma interruptCause_eq (i : Interrupt) : interruptCause i = (1 : U64) <<< 63 + i.code := by
  cases i <;> decide

/-- Bit 63 of the cause does not get into the vector. -/
lemma four_mul_interruptCause (i : Interrupt) : 4 * interruptCause i = 4 * i.code := by
  cases i <;> decide

/-- `~1` clears the lowest bit. -/
lemma and_not_one_eq_clearLow (x : U64) : x &&& ~~~1 = clearLow 1 x := by
  have hone : ∀ n < 64, (~~~(1 : U64)).getLsbD n = !decide (n < 1) := by decide
  apply BitVec.eq_of_getLsbD_eq
  intro n hn
  rw [BitVec.getLsbD_and, hone n hn, getLsbD_clearLow 1 x hn, Bool.and_comm]

lemma vectored_eq_iff (tvec : U64) (i : Interrupt) :
    vectored tvec (interruptCause i) = vectorEntry tvec i ↔ tvec.toNat < 2 ^ 32 := by
  have hbit : tvec &&& 1 ≠ 0 ↔ tvec.getLsbD 0 = true := by
    rw [← BitFields.ushiftRight_and_one_ne_zero (by decide) tvec 0]
    simp
  rw [vectored, vectorEntry, four_mul_interruptCause, ← and_allBut32_eq_iff,
    ← and_not_one_eq_clearLow]
  simp only [hbit]
  exact BitVec.add_left_inj _

lemma reg_scause_supervisorEntry (c : Csrs) (prev : Mode) (pc cause : U64) :
    (supervisorEntry c prev pc cause).reg scause = cause := by
  rw [supervisorEntry_eq, Csrs.reg_set_of_ne (by decide), Csrs.reg_set_of_ne (by decide),
    Csrs.reg_set_self]

lemma reg_mcause_machineEntry (c : Csrs) (prev : Mode) (pc cause : U64) :
    (machineEntry c prev pc cause).reg mcause = cause := by
  rw [machineEntry_eq, Csrs.reg_set_of_ne (by decide), Csrs.reg_set_of_ne (by decide),
    Csrs.reg_set_self]

/-- The level that is entered, given what the undefined shift gives. -/
def enteredLevel (shift : U64 → Bool) (s : VEmu) (i : Interrupt) : Mode :=
  if s.mode ≠ .Machine ∧ shift (interruptCause i) then .Supervisor else .Machine

lemma delegatedAs_interruptCause (shift : U64 → Bool) (s : VEmu) (i : Interrupt) :
    delegatedAs shift s (interruptCause i) = shift (interruptCause i) := by
  refine if_neg ?_
  cases i <;> decide

lemma tvecAs_interruptCause (shift : U64 → Bool) (s : VEmu) (i : Interrupt) :
    tvecAs shift s (interruptCause i) = s.csrs.reg (vectorRegister (enteredLevel shift s i)) := by
  rw [tvecAs, delegatedAs_interruptCause, enteredLevel, Csrs.loadCsr_of_ne (by decide),
    Csrs.loadCsr_of_ne (by decide)]
  split_ifs <;> rfl

lemma mode_takeInterruptAs (shift : U64 → Bool) (s : VEmu) (i : Interrupt) :
    (takeInterruptAs shift s i).mode = enteredLevel shift s i := by
  rw [takeInterruptAs, enterAs, delegatedAs_interruptCause, enteredLevel]
  split_ifs <;> rfl

lemma cause_takeInterruptAs (shift : U64 → Bool) (s : VEmu) (i : Interrupt) :
    (takeInterruptAs shift s i).csrs.reg (causeRegister (enteredLevel shift s i))
      = interruptCause i := by
  rw [takeInterruptAs, enterAs, delegatedAs_interruptCause, enteredLevel]
  split_ifs
  · exact reg_scause_supervisorEntry ..
  · exact reg_mcause_machineEntry ..

lemma enteredLevel_eq_iff (shift : U64 → Bool) (s : VEmu) (i : Interrupt) :
    enteredLevel shift s i = s.interruptLevel i
      ↔ (s.mode ≠ .Machine →
          shift (interruptCause i) = (s.csrs.reg mideleg).getLsbD i.code.toNat) := by
  unfold enteredLevel interruptLevel
  by_cases hmode : s.mode = .Machine
  · simp [hmode]
  · cases shift (interruptCause i) <;>
      cases (s.csrs.reg mideleg).getLsbD i.code.toNat <;> simp [hmode]

/-- **What an interrupt comes to, whatever the undefined shift gives.**  The cause and the entry
of the vector are right.  The level is right if the shift happens to give the bit of `MIDELEG`,
and the base if it is in the lower half of the address space. -/
theorem honours_iff (shift : U64 → Bool) (s : VEmu) (i : Interrupt) :
    HonoursMideleg s (takeInterruptAs shift s i) i
      ↔ (s.mode ≠ .Machine →
          shift (interruptCause i) = (s.csrs.reg mideleg).getLsbD i.code.toNat)
        ∧ (tvecAs shift s (interruptCause i)).toNat < 2 ^ 32 := by
  have hpc : (takeInterruptAs shift s i).pc + 4
      = vectored (tvecAs shift s (interruptCause i)) (interruptCause i) := by
    rw [takeInterruptAs, pc_enterAs, BitVec.sub_add_cancel, interruptHandler]
  rw [← enteredLevel_eq_iff, ← mode_takeInterruptAs, ← vectored_eq_iff _ i]
  constructor
  · intro h
    refine ⟨h.level, ?_⟩
    rw [← hpc, h.handler, tvecAs_interruptCause, mode_takeInterruptAs]
  · rintro ⟨hlevel, hvector⟩
    refine ⟨hlevel, ?_, ?_⟩
    · rw [mode_takeInterruptAs, cause_takeInterruptAs, interruptCause_eq]
    · rw [hpc, hvector, tvecAs_interruptCause, mode_takeInterruptAs]

end VEmu

end Vemu
