import Vemu.Atomics.ReadModifyWrite
import Vemu.CodeFetch
import Vemu.Trap.Rounds

/-!
# Causes of exceptions

Whatever a fetch or a handler reports goes to `trap`, which shifts the delegation register by its
number and writes the number to the cause register.  That is right for the exceptions of the
instruction set, but the memory unit has two of its own, with numbers far above the width of the
register.  They come from a load in RAM of a byte that is uninitialised or cannot be read, and the handlers
that look at what a load reports pass them on; the sign-extending loads do not.

So in a run every cause is one of the instruction set exactly if every load that is reported reads
initialised and readable bytes (**`traps_iff`**).
-/

namespace Vemu

open Fallible Transition

/-- A device reports nothing, or an access fault. -/
lemma Bus.load_device {bus bus' : Bus} {addr v : U64} {sz : ℕ} {e : ReturnException}
    (hram : bus.routesToRam addr = false) (h : bus.load addr sz = .ok ((v, e), bus')) :
    e = .NormalExecutionReturn ∨ e = .LoadAccessFault := by
  cases hd : bus.devices with
  | none => simp [routesToRam, hd] at hram
  | some d =>
      simp only [load, hd, CLINT.load, PLIC.load, UART.load] at h
      split_ifs at h with h1 h64 h2 h64 h3 h8
      · exact Or.inl (Prod.mk.inj (Prod.mk.inj (Except.ok.inj h)).1).2.symm
      · exact Or.inr (Prod.mk.inj (Prod.mk.inj (Except.ok.inj h)).1).2.symm
      · exact Or.inl (Prod.mk.inj (Prod.mk.inj (Except.ok.inj h)).1).2.symm
      · exact Or.inr (Prod.mk.inj (Prod.mk.inj (Except.ok.inj h)).1).2.symm
      · exact Or.inl (Prod.mk.inj (Prod.mk.inj (Except.ok.inj h)).1).2.symm
      · exact Or.inr (Prod.mk.inj (Prod.mk.inj (Except.ok.inj h)).1).2.symm
      · simp [routesToRam, hd, h1, h2, h3] at hram

namespace VEmu

variable {shift : U64 → Bool} {host : Host} {build : Build} {s s' f t : VEmu} {e : ReturnException}
  {addr : U64} {sz n : ℕ}

/-! ## Causes of the instruction set -/

/-- The exceptions that the instruction set defines a cause for; 10 and 14 are reserved. -/
def DefinedCause (n : ℕ) : Prop := n < 16 ∧ n ≠ 10 ∧ n ≠ 14

instance (n : ℕ) : Decidable (DefinedCause n) := inferInstanceAs (Decidable (_ ∧ _))

/-- **What is asked of a trap**: its shift is defined, and it writes a cause of the instruction set. -/
structure TrapsRight (build : Build) (s : VEmu) (e : ReturnException) : Prop where
  shift : e.code.toNat < 64
  cause : ∃ s', s.trap build e = .ok s' ∧ s'.csrs.reg (s.targetLevel e).cause = e.code.setWidth 64
  defined : DefinedCause e.code.toNat

lemma trapsRight_iff (hb : build ≠ .fuzz) : TrapsRight build s e ↔ IsStandard e := by
  constructor
  · intro h
    exact h.defined.1
  · intro h
    obtain ⟨s', htrap, hentered⟩ := trap_entered hb h s
    refine ⟨lt_trans h (by decide), ⟨s', htrap, hentered.reg_cause (wellFormed_targetLevel s e)⟩, ?_⟩
    cases e <;> revert h <;> decide

/-- A report that the loop can deal with. -/
def Reports (e : ReturnException) : Prop := e = .NormalExecutionReturn ∨ IsStandard e

instance (e : ReturnException) : Decidable (Reports e) := inferInstanceAs (Decidable (_ ∨ _))

/-- A load has no report of its own but the two of the memory unit. -/
lemma reports_readOutcome_iff (m : MMU) (addr : U64) (n : ℕ) :
    Reports (m.readOutcome addr n) ↔ m.readOutcome addr n = .NormalExecutionReturn := by
  unfold MMU.readOutcome
  generalize (_, _) = perms
  rcases perms with ⟨_ | _, _ | _⟩ <;> decide

/-! ## Loads -/

/-- The bytes are not in RAM, or they can be read and are initialised. -/
def ReadsRight (s : VEmu) (addr : U64) (n : ℕ) : Prop :=
  s.bus.routesToRam addr = true → s.bus.mmu.Fits addr n →
    (∀ k < n, s.bus.mmu.bytePermission.data (addr.toNat + k) &&& permRead ≠ 0)
      ∧ ∀ k < n, s.bus.mmu.bytePermission.data (addr.toNat + k) &&& permRaw = 0

/-- **A load** reports what the loop can deal with exactly if it reads the right bytes. -/
lemma load_reports_iff (hm : s.bus.mmu.Backed) (hsz : MMU.sizeBytes sz = some n) :
    (∀ v e bus, s.bus.load addr sz = .ok ((v, e), bus) → Reports e) ↔ ReadsRight s addr n := by
  cases hram : s.bus.routesToRam addr with
  | false =>
      refine iff_of_true (fun v e bus h => ?_) fun h => absurd h (by simp [hram])
      rcases Bus.load_device hram h with rfl | rfl
      · decide
      · decide
  | true =>
      rw [Bus.load_of_ram hram]
      by_cases hf : s.bus.mmu.Fits addr n
      · rw [MMU.load_of_fits hm hsz hf, ok_bind]
        have hright : ReadsRight s addr n ↔ Reports (s.bus.mmu.readOutcome addr n) := by
          rw [reports_readOutcome_iff, MMU.readOutcome_normal_iff]
          exact ⟨fun h => h hram hf, fun h _ _ => h⟩
        rw [hright]
        constructor
        · exact fun h => h _ _ _ rfl
        · intro h v e bus heq
          rwa [← (Prod.mk.inj (Prod.mk.inj (Except.ok.inj heq)).1).2]
      · refine iff_of_true (fun v e bus h => ?_) fun _ hfit => absurd hfit hf
        by_cases hw : s.bus.mmu.Wraps addr n
        · rw [MMU.load_of_wraps hsz hw, ok_bind] at h
          rw [← (Prod.mk.inj (Prod.mk.inj (Except.ok.inj h)).1).2]
          decide
        · rw [MMU.load_of_not hsz hf hw] at h
          cases h

/-! ## Handlers -/

/-- The bytes, if any, whose load the handler of an instruction passes on. -/
def passedOn (n : IName) (s : VEmu) : Option (U64 × ℕ) :=
  match n with
  | .LBU => some (s.loadReg s.rs1 + s.imm, 1)
  | .LHU => some (s.loadReg s.rs1 + s.imm, 2)
  | .LWU => some (s.loadReg s.rs1 + s.imm, 4)
  | .LD => some (s.loadReg s.rs1 + s.imm, 8)
  | .LRW | .AMOSWAPW | .AMOADDW | .AMOXORW | .AMOANDW | .AMOORW | .AMOMINW | .AMOMAXW | .AMOMINUW
  | .AMOMAXUW => if aligned (s.loadReg s.rs1) 32 then some (s.loadReg s.rs1, 4) else none
  | .LRD | .AMOSWAPD | .AMOADDD | .AMOXORD | .AMOANDD | .AMOORD | .AMOMIND | .AMOMAXD | .AMOMINUD
  | .AMOMAXUD => if aligned (s.loadReg s.rs1) 64 then some (s.loadReg s.rs1, 8) else none
  | _ => none

/-- What is read is right. -/
def PassesRight (s : VEmu) (range : Option (U64 × ℕ)) : Prop :=
  ∀ r, range = some r → ReadsRight s r.1 r.2

lemma passesRight_none (s : VEmu) : PassesRight s none := fun r h => by cases h

lemma passesRight_some (s : VEmu) (r : U64 × ℕ) : PassesRight s (some r) ↔ ReadsRight s r.1 r.2 := by
  simp [PassesRight]

/-- The handler reports what the loop can deal with. -/
def HandlerReports (h : Handler) (s : VEmu) : Prop := ∀ e s', h s = .ok (e, s') → Reports e

lemma handlerReports_of_ok {h : Handler} (hr : h s = .ok (e, s')) (he : Reports e) :
    HandlerReports h s := by
  intro e' s'' heq
  obtain ⟨rfl, -⟩ := Prod.mk.inj (Except.ok.inj (hr.symm.trans heq))
  exact he

lemma store_reports {data : U64} (h : s.store addr data sz = .ok (e, s')) : Reports e := by
  obtain ⟨bus, hstore, -⟩ := store_frame h
  by_cases ht : s.bus.Takes addr sz
  · exact Or.inl (Bus.store_of_takes ht hstore)
  · rw [Bus.store_of_not_takes ht] at hstore
    obtain ⟨rfl, -⟩ := Prod.mk.inj (Except.ok.inj hstore)
    decide

lemma storeData_reports (sz : ℕ) (f : U64 → U64) (s : VEmu) : HandlerReports (storeData sz f) s :=
  fun _ _ h => store_reports h

lemma loadSigned_reports (bits : ℕ) (unsigned : Handler) (s : VEmu) :
    HandlerReports (loadSigned bits unsigned) s := by
  intro e s' h
  obtain ⟨r, -, h⟩ := bind_eq_ok_iff.mp h
  exact Or.inl (Prod.mk.inj (Except.ok.inj h)).1.symm

lemma storeConditional_reports (sz : ℕ) (s : VEmu) : HandlerReports (storeConditional sz) s := by
  intro e s' h
  unfold storeConditional at h
  dsimp only at h
  split_ifs at h
  · obtain ⟨rfl, -⟩ := Prod.mk.inj (Except.ok.inj h)
    decide
  · obtain ⟨⟨exp, s₁⟩, hstore, h⟩ := bind_eq_ok_iff.mp h
    obtain ⟨rfl, -⟩ := Prod.mk.inj (Except.ok.inj h)
    exact store_reports hstore

lemma dividing_reports (f : U64 → U64 → Option U64) (s : VEmu) : HandlerReports (dividing f) s := by
  intro e s' h
  unfold dividing at h
  split at h
  · exact Or.inl (Prod.mk.inj (Except.ok.inj h)).1.symm
  · exact Or.inl (Prod.mk.inj (Except.ok.inj h)).1.symm

lemma ecallEmu_reports (s : VEmu) : HandlerReports ecallEmu s := by
  intro e s' h
  unfold ecallEmu at h
  split at h
  · obtain ⟨rfl, -⟩ := Prod.mk.inj (Except.ok.inj h)
    decide
  · obtain ⟨rfl, -⟩ := Prod.mk.inj (Except.ok.inj h)
    decide
  · obtain ⟨rfl, -⟩ := Prod.mk.inj (Except.ok.inj h)
    decide

/-- A handler that loads, and passes on what is reported. -/
lemma reports_of_load {h : Handler} (hm : s.bus.mmu.Backed) (hsz : MMU.sizeBytes sz = some n)
    (next : U64 → VEmu → Except Fault (ReturnException × VEmu))
    (hh : h s = s.load addr sz >>= fun r =>
      if r.1.2 ≠ .NormalExecutionReturn then .ok (r.1.2, r.2) else next r.1.1 r.2)
    (hnext : ∀ v s₁ e s', next v s₁ = .ok (e, s') → Reports e) :
    HandlerReports h s ↔ ReadsRight s addr n := by
  rw [← load_reports_iff hm hsz]
  constructor
  · intro hreports v e bus hload
    by_cases he : e = .NormalExecutionReturn
    · exact Or.inl he
    · refine hreports e { s with bus := bus } ?_
      rw [hh, load, hload]
      simp only [ok_bind, pure_eq_ok, if_pos he]
  · intro hload e s' heq
    rw [hh, bind_eq_ok_iff] at heq
    obtain ⟨⟨⟨v, exp⟩, s₁⟩, hs₁, heq⟩ := heq
    obtain ⟨⟨r, bus⟩, hbus, hs₁⟩ := bind_eq_ok_iff.mp hs₁
    obtain ⟨rfl, -⟩ := Prod.mk.inj (Except.ok.inj hs₁)
    dsimp only at heq
    split_ifs at heq
    · obtain ⟨rfl, -⟩ := Prod.mk.inj (Except.ok.inj heq)
      exact hload v exp bus hbus
    · exact hnext _ _ _ _ heq

lemma loadUnsigned_reports_iff (hm : s.bus.mmu.Backed) (hsz : MMU.sizeBytes sz = some n) :
    HandlerReports (loadUnsigned sz) s ↔ PassesRight s (some (s.loadReg s.rs1 + s.imm, n)) := by
  rw [passesRight_some]
  refine reports_of_load hm hsz (fun v s₁ => normal (s₁.storeReg s₁.rd v)) rfl fun v s₁ e s' h => ?_
  exact Or.inl (Prod.mk.inj (Except.ok.inj h)).1.symm

/-- An atomic load reads only where the address is aligned. -/
lemma reports_of_aligned {h : Handler} (hmis : aligned (s.loadReg s.rs1) sz = false →
      h s = .ok (.LoadAddressMisaligned, s))
    (hread : aligned (s.loadReg s.rs1) sz = true → (HandlerReports h s ↔ ReadsRight s (s.loadReg s.rs1) n)) :
    HandlerReports h s
      ↔ PassesRight s (if aligned (s.loadReg s.rs1) sz then some (s.loadReg s.rs1, n) else none) := by
  cases hal : aligned (s.loadReg s.rs1) sz with
  | false =>
      exact iff_of_true (handlerReports_of_ok (hmis hal) (by decide)) (passesRight_none s)
  | true =>
      rw [if_pos rfl, passesRight_some]
      exact hread hal

lemma loadReserved_reports_iff (hm : s.bus.mmu.Backed) (hsz : MMU.sizeBytes sz = some n) :
    HandlerReports (loadReserved sz) s
      ↔ PassesRight s (if aligned (s.loadReg s.rs1) sz then some (s.loadReg s.rs1, n) else none) := by
  refine reports_of_aligned (fun hal => ?_) fun hal => ?_
  · rw [loadReserved]
    simp only [hal, Bool.not_false, if_true]
    rfl
  · refine reports_of_load hm hsz (fun v s₁ => normal (s₁.storeReg s₁.rd v)) ?_ fun v s₁ e s' h => ?_
    · rw [loadReserved]
      simp only [hal, Bool.not_true, Bool.false_eq_true, if_false]
      rfl
    · exact Or.inl (Prod.mk.inj (Except.ok.inj h)).1.symm

lemma amo_reports_iff (hm : s.bus.mmu.Backed) (hsz : MMU.sizeBytes sz = some n) (old : U64 → U64)
    (g : U64 → U64 → U64) :
    HandlerReports (amo sz old g) s
      ↔ PassesRight s (if aligned (s.loadReg s.rs1) sz then some (s.loadReg s.rs1, n) else none) := by
  refine reports_of_aligned (fun hal => ?_) fun hal => ?_
  · rw [amo]
    simp only [hal, Bool.not_false, if_true]
    rfl
  · refine reports_of_load hm hsz (fun v s₁ =>
      s₁.store (s.loadReg s.rs1) (g v (s₁.loadReg s₁.rs2)) sz >>= fun r =>
        if r.1 ≠ .NormalExecutionReturn then .ok r else normal (r.2.storeReg r.2.rd (old v))) ?_ ?_
    · rw [amo]
      simp only [hal, Bool.not_true, Bool.false_eq_true, if_false]
      rfl
    · intro v s₁ e s' h
      obtain ⟨⟨exp, s₂⟩, hstore, h⟩ := bind_eq_ok_iff.mp h
      dsimp only at h
      split_ifs at h
      · obtain ⟨rfl, -⟩ := Prod.mk.inj (Except.ok.inj h)
        exact store_reports hstore
      · exact Or.inl (Prod.mk.inj (Except.ok.inj h)).1.symm

/-- **A handler** reports what the loop can deal with exactly if what it passes on is right. -/
lemma handler_reports_iff (hb : host.build ≠ .fuzz) (hm : s.bus.mmu.Backed) (n : IName) :
    HandlerReports (handler host n) s ↔ PassesRight s (passedOn n s) := by
  cases n <;> simp only [handler, passedOn]
  case LB | LH | LW => exact iff_of_true (loadSigned_reports _ _ s) (passesRight_none s)
  case LBU | LHU | LWU | LD => exact loadUnsigned_reports_iff hm rfl
  case SB | SH | SW | SD => exact iff_of_true (storeData_reports _ _ s) (passesRight_none s)
  case LRW | LRD =>
      simp only [LRW, LRD]
      exact loadReserved_reports_iff hm rfl
  case SCW | SCD => exact iff_of_true (storeConditional_reports _ s) (passesRight_none s)
  case AMOSWAPW | AMOADDW | AMOXORW | AMOANDW | AMOORW | AMOMINW | AMOMAXW | AMOMINUW | AMOMAXUW =>
      simp only [AMOSWAPW, AMOADDW, AMOXORW, AMOANDW, AMOORW, AMOMINW, AMOMAXW, AMOMINUW, AMOMAXUW,
        amoW]
      exact amo_reports_iff hm rfl _ _
  case AMOSWAPD | AMOADDD | AMOXORD | AMOANDD | AMOORD | AMOMIND | AMOMAXD | AMOMINUD | AMOMAXUD =>
      simp only [AMOSWAPD, AMOADDD, AMOXORD, AMOANDD, AMOORD, AMOMIND, AMOMAXD, AMOMINUD, AMOMAXUD,
        amoD]
      exact amo_reports_iff hm rfl _ _
  case DIV | DIVU | DIVW | DIVUW => exact iff_of_true (dividing_reports _ s) (passesRight_none s)
  case MRET =>
      refine iff_of_true (fun e s' h => ?_) (passesRight_none s)
      obtain ⟨mode, -, h⟩ := bind_eq_ok_iff.mp h
      exact Or.inl (Prod.mk.inj (Except.ok.inj h)).1.symm
  case ECALL =>
      refine iff_of_true ?_ (passesRight_none s)
      cases hbuild : host.build with
      | fuzz => exact absurd hbuild hb
      | test => exact handlerReports_of_ok rfl (Or.inl rfl)
      | emu => exact ecallEmu_reports s
  -- what is left goes through, or reports an exception of the instruction set
  all_goals exact iff_of_true (handlerReports_of_ok rfl (by decide)) (passesRight_none s)

/-- A mnemonic without an entry has no handler, and passes nothing on. -/
lemma dispatch_reports_iff (hb : host.build ≠ .fuzz) (hs : s.Intact host) (n : IName) :
    HandlerReports (dispatch host n) s ↔ PassesRight s (passedOn n s) := by
  by_cases hn : n = .FSQRTS
  · subst hn
    refine iff_of_true (fun e s' h => ?_) (passesRight_none s)
    rw [dispatch, dispatchWith, if_neg (by rw [hs.instFuncs, mem_initFuncMap]; simp)] at h
    cases h
  · rw [← handler_reports_iff hb hs.memory n]
    have hmem : n ∈ s.instFuncs := by
      rw [hs.instFuncs, mem_initFuncMap]
      exact hn
    simp only [HandlerReports, dispatch, dispatchWith, if_pos hmem]

/-! ## Rounds -/

/-- **A fetch** reports what the loop can deal with; over the bus only if it reads the right bytes. -/
lemma fetch_reports_iff (hm : s.bus.mmu.Backed) :
    (∀ w e s', s.fetch host = .ok ((w, e), s') → Reports e)
      ↔ (host.build = .test → ReadsRight s s.pc 4) := by
  by_cases hb : host.build = .test
  · rw [forall_prop_of_true hb, ← load_reports_iff hm (show MMU.sizeBytes 32 = some 4 from rfl)]
    simp only [fetch, if_pos hb, load]
    cases s.bus.load s.pc 32 with
    | error fault => simp
    | ok r =>
        obtain ⟨⟨v, e⟩, bus⟩ := r
        simp
  · refine iff_of_true (fun w e s' h => Or.inl ?_) fun h => absurd h hb
    obtain rfl := fetch_frame h
    exact fetch_direct hb h

/-- What a round traps with: the report of its fetch, and the report of its handler. -/
structure RoundTraps (shift : U64 → Bool) (host : Host) (f : VEmu) : Prop where
  fetch : ∀ w e f', f.fetch host = .ok ((w, e), f') → e ≠ .NormalExecutionReturn →
    TrapsRight host.build f' e
  handler : ∀ t, callAs shift host f = .ok t → ∀ e t', dispatch host t.currInstr.name t = .ok (e, t') →
    e ≠ .NormalExecutionReturn → TrapsRight host.build t' e

/-- What a round reads and passes on: the instruction over the bus, and the bytes of a load. -/
structure RoundReads (shift : U64 → Bool) (host : Host) (f : VEmu) : Prop where
  fetch : host.build = .test → ReadsRight f f.pc 4
  handler : ∀ t, callAs shift host f = .ok t → PassesRight t (passedOn t.currInstr.name t)

/-- **One round.** -/
lemma roundTraps_iff (hb : host.build ≠ .fuzz) (hf : f.Intact host) :
    RoundTraps shift host f ↔ RoundReads shift host f := by
  have hreports : ∀ e s, (e ≠ .NormalExecutionReturn → TrapsRight host.build s e) ↔ Reports e := by
    intro e s
    rw [trapsRight_iff hb, Reports, or_iff_not_imp_left]
  have hhandler : (∀ t, callAs shift host f = .ok t → HandlerReports (dispatch host t.currInstr.name) t)
      ↔ ∀ t, callAs shift host f = .ok t → PassesRight t (passedOn t.currInstr.name t) :=
    forall₂_congr fun t ht => dispatch_reports_iff hb (hf.call ht) t.currInstr.name
  constructor
  · rintro ⟨hfetch, hcalls⟩
    refine ⟨(fetch_reports_iff hf.memory).mp fun w e f' h => ?_, hhandler.mp fun t ht e t' h => ?_⟩
    · exact (hreports e f').mp (hfetch w e f' h)
    · exact (hreports e t').mp (hcalls t ht e t' h)
  · rintro ⟨hfetch, hcalls⟩
    refine ⟨fun w e f' h => ?_, fun t ht e t' h => ?_⟩
    · exact (hreports e f').mpr ((fetch_reports_iff hf.memory).mpr hfetch w e f' h)
    · exact (hreports e t').mpr (hhandler.mpr hcalls t ht e t' h)

/-! ## Runs -/

/-- **The causes of a run** are those of the instruction set, and no shift by them is undefined,
exactly if every round of it reads the right bytes. -/
theorem traps_iff (hb : host.build ≠ .fuzz) (hs : s.Intact host) (ops : List Event) :
    AllTries (stepNoting shift host) (AtFetch shift host (RoundTraps shift host)) (.next s, []) ops
      ↔ AllTries (stepNoting shift host) (AtFetch shift host (RoundReads shift host)) (.next s, [])
          ops :=
  atFetch_congr (fun _ hf => roundTraps_iff hb hf) hs ops

/-! ## A byte that can be read, and one that cannot -/

/-- `lbu x1, 0(x0)` at address zero, in a page of RAM with the given permissions. -/
def loadingByte (perm : U8) : VEmu :=
  { onePage 0 0 with
    bus :=
      { devices := some ⟨.new, .new, .new false⟩, ramSize := 4096
        mmu := (MMU.uniform 4096 perm).written 0 (MMU.split 4 0x4083) } }

lemma intact_loadingByte (perm : U8) : (loadingByte perm).Intact (.bare .emu) where
  instFuncs := rfl
  memory := (MMU.backed_uniform (by decide) _).withContents _ _
  devices := rfl
  decoder := InstructionDecoder.consistent_init

/-- A round of it comes to its fetch as it is. -/
lemma head_loadingByte (perm : U8) :
    headAs (fun _ => false) (.bare .emu) (loadingByte perm) = .ok (.next (loadingByte perm)) := by
  have hoff : (loadingByte perm).interruptsOff = true :=
    show (onePage 0 0).interruptsOff = true by decide +kernel
  have hexited : (loadingByte perm).hasExited = false := rfl
  simp only [headAs, hexited, pollAs, checkPendingInterrupt, hoff]
  rfl

lemma bus_callAs (h : callAs shift host f = .ok t) : t.bus = f.bus := by
  obtain ⟨w, exp, t₀, ins, -, hfinish, -, rfl⟩ := callAs_cases h
  obtain ⟨csrs, mode, pc, rfl⟩ := finishAs_frame hfinish
  rfl

/-- It calls the handler of `LBU`. -/
lemma call_loadingByte {perm : U8} (hperm : perm = permExec ∨ perm = permRead) :
    ∃ t, callAs (fun _ => false) (.bare .emu) (loadingByte perm) = .ok t
      ∧ passedOn t.currInstr.name t = some (0, 1) := by
  have hview : (callAs (fun _ => false) (.bare .emu) (loadingByte perm) >>= fun t =>
      .ok (passedOn t.currInstr.name t)) = .ok (some (0, 1)) := by
    rcases hperm with rfl | rfl
    · decide +kernel
    · decide +kernel
  obtain ⟨t, ht, hpassed⟩ := bind_eq_ok_iff.mp hview
  exact ⟨t, ht, Except.ok.inj hpassed⟩

lemma roundReads_loadingByte_iff {perm : U8} (hperm : perm = permExec ∨ perm = permRead) :
    RoundReads (fun _ => false) (.bare .emu) (loadingByte perm) ↔ ReadsRight (loadingByte perm) 0 1 := by
  obtain ⟨t, ht, hpassed⟩ := call_loadingByte hperm
  have hbus := bus_callAs ht
  have hreads : ReadsRight t 0 1 ↔ ReadsRight (loadingByte perm) 0 1 := by
    rw [ReadsRight, hbus, ReadsRight]
  rw [← hreads]
  constructor
  · exact fun h => h.handler t ht (0, 1) hpassed
  · intro h
    refine ⟨fun hbuild => absurd hbuild (by decide), fun t' ht' r hr => ?_⟩
    obtain rfl := Except.ok.inj (ht.symm.trans ht')
    obtain rfl := Option.some.inj (hpassed.symm.trans hr)
    exact h

theorem traps_loadingByte :
    AllTries (stepNoting (fun _ => false) (.bare .emu))
      (AtFetch (fun _ => false) (.bare .emu) (RoundTraps (fun _ => false) (.bare .emu)))
      (.next (loadingByte permRead), []) [.round] := by
  refine (traps_iff (by decide) (intact_loadingByte permRead) [.round]).mpr
    ⟨fun f hf => ?_, fun _ _ => trivial⟩
  obtain rfl := Turn.next.inj (Except.ok.inj ((head_loadingByte permRead).symm.trans hf))
  rw [roundReads_loadingByte_iff (Or.inr rfl)]
  exact fun _ _ => by decide

/-- Reading a byte that can only be executed ends at the shift. -/
theorem not_traps_loadingByte :
    ((loadingByte permExec).iterate (.bare .emu) >>= fun _ => .ok ()) = .error .badShift
      ∧ ¬ ∀ shift host s ops, host.build ≠ .fuzz → s.Intact host →
          AllTries (stepNoting shift host) (AtFetch shift host (RoundTraps shift host)) (.next s, [])
            ops := by
  refine ⟨by decide +kernel, fun h => ?_⟩
  obtain ⟨hround, -⟩ := h (fun _ => false) (.bare .emu) (loadingByte permExec) [.round] (by decide)
    (intact_loadingByte permExec)
  have hreads := (roundTraps_iff (by decide) (intact_loadingByte permExec)).mp
    (hround _ (head_loadingByte permExec))
  rw [roundReads_loadingByte_iff (Or.inl rfl)] at hreads
  exact absurd ((hreads rfl (by decide)).1 0 (by decide)) (by decide)

end VEmu

end Vemu
