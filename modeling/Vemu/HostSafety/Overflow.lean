import Vemu.Lib.SignedArithmetic
import Vemu.Refinement.Step

/-!
# Handlers whose signed arithmetic may overflow

Registers are read as signed numbers, and the sums, differences and products of the handlers are
taken in signed types, where an overflow is undefined.  The handlers are written here once more
with that arithmetic as it is, so that an overflow stops them (`checkedHandler`).  Otherwise they are
the handlers that wrap (`checkedHandler_checks`).

Nothing keeps the operands away from the ends of the range, so a handler does not overflow exactly if
its operands are safe (**`noOverflow_iff`**).
-/

namespace Vemu

open Fallible SignedArithmetic

namespace VEmu

/-- How a process ends: by a fault, or by an overflow. -/
inductive Stop
  | fault (f : Fault)
  | overflow

/-- Code without signed arithmetic. -/
def within {α : Type} : Except Fault α → Except Stop α
  | .ok a => .ok a
  | .error f => .error (.fault f)

abbrev CheckedHandler := VEmu → Except Stop (ReturnException × VEmu)

/-! ## Families -/

/-- `rd` from `rs1` and `rs2`. -/
def regRegChecked (f : U64 → U64 → Option U64) : CheckedHandler := fun s => do
  let res ← orFault .overflow (f (s.loadReg s.rs1) (s.loadReg s.rs2))
  within (normal (s.storeReg s.rd res))

/-- `rd` from `rs1` and the immediate. -/
def regImmChecked (f : U64 → U64 → Option U64) : CheckedHandler := fun s => do
  let res ← orFault .overflow (f (s.loadReg s.rs1) s.imm)
  within (normal (s.storeReg s.rd res))

/-- The address of a load, a store or a jump: `static_cast<int64_t>(load_reg(rs1)) + imm`. -/
def checkedAddr (s : VEmu) : Except Stop U64 :=
  orFault .overflow (intAdd (s.loadReg s.rs1) s.imm)

def loadUnsignedChecked (sz : ℕ) : CheckedHandler := fun s => do
  let memAddr ← s.checkedAddr
  let ((res, exp), s) ← within (s.load memAddr sz)
  if exp ≠ .NormalExecutionReturn then return (exp, s)
  within (normal (s.storeReg s.rd res))

def loadSignedChecked (bits : ℕ) (unsigned : CheckedHandler) : CheckedHandler := fun s => do
  let (_, s) ← unsigned s
  within (normal (s.storeReg s.rd (((s.loadReg s.rd).setWidth bits).signExtend 64)))

def storeDataChecked (sz : ℕ) (f : U64 → U64) : CheckedHandler := fun s => do
  let memAddr ← s.checkedAddr
  within (s.store memAddr (f (s.loadReg s.rs2)) sz)

def jalrChecked : CheckedHandler := fun s => do
  let s' := s.storeReg s.rd (s.pc + 4)
  let target ← s.checkedAddr
  within (normal { s' with pc := (target &&& ~~~1) - 4 })

/-- A read-modify-write, of which only the operation is signed. -/
def amoChecked (sz : ℕ) (old : U64 → U64) (f : U64 → U64 → Option U64) : CheckedHandler := fun s => do
  let addr := s.loadReg s.rs1
  if !aligned addr sz then return (.LoadAddressMisaligned, s)
  let ((tmp, exp), s) ← within (s.load addr sz)
  if exp ≠ .NormalExecutionReturn then return (exp, s)
  let res ← orFault .overflow (f tmp (s.loadReg s.rs2))
  let (exp, s) ← within (s.store addr res sz)
  if exp ≠ .NormalExecutionReturn then return (exp, s)
  within (normal (s.storeReg s.rd (old tmp)))

/-- The operation on the lower halves. -/
def onWords (f : U32 → U32 → Option U32) (a b : U64) : Option U64 :=
  (f (a.setWidth 32) (b.setWidth 32)).map (·.signExtend 64)

/-- **A handler that an overflow stops.** -/
def checkedHandler (host : Host) : IName → CheckedHandler
  | .ADD => regRegChecked intAdd
  | .SUB => regRegChecked intSub
  | .MUL => regRegChecked intMul
  | .ADDW => regRegChecked (onWords intAdd)
  | .SUBW => regRegChecked (onWords intSub)
  | .MULW => regRegChecked (onWords intMul)
  | .ADDI => regImmChecked intAdd
  | .ADDIW => regImmChecked fun a imm =>
      (intAdd a imm).map fun sum => ((sum &&& 0xFFFFFFFF).setWidth 32).signExtend 64
  | .LBU => loadUnsignedChecked 8
  | .LHU => loadUnsignedChecked 16
  | .LWU => loadUnsignedChecked 32
  | .LD => loadUnsignedChecked 64
  | .LB => loadSignedChecked 8 (loadUnsignedChecked 8)
  | .LH => loadSignedChecked 16 (loadUnsignedChecked 16)
  | .LW => loadSignedChecked 32 (loadUnsignedChecked 32)
  | .SB => storeDataChecked 8 (· &&& 0xFF)
  | .SH => storeDataChecked 16 (· &&& 0xFFFF)
  | .SW => storeDataChecked 32 (· &&& 0xFFFFFFFF)
  | .SD => storeDataChecked 64 id
  | .JALR => jalrChecked
  | .AMOADDW => amoChecked 32 oldWord fun tmp b =>
      (intAdd (tmp.setWidth 32) (b.setWidth 32)).map (·.setWidth 64)
  | .AMOADDD => amoChecked 64 id intAdd
  | n => fun s => within (handler host n s)

/-! ## Safe operands -/

/-- The old value in memory and `rs2` are safe, where an atomic operation comes to its addition. -/
def SafeAmo (sz : ℕ) (safe : U64 → U64 → Prop) (s : VEmu) : Prop :=
  aligned (s.loadReg s.rs1) sz = true → ∀ old bus,
    s.bus.load (s.loadReg s.rs1) sz = .ok ((old, .NormalExecutionReturn), bus) →
      safe old (s.loadReg s.rs2)

/-- **The operands of an instruction** are safe. -/
def SafeOperands (s : VEmu) : IName → Prop
  | .ADD => SafeAdd (s.loadReg s.rs1) (s.loadReg s.rs2)
  | .SUB => SafeSub (s.loadReg s.rs1) (s.loadReg s.rs2)
  | .MUL => SafeMul (s.loadReg s.rs1) (s.loadReg s.rs2)
  | .ADDW => SafeAdd ((s.loadReg s.rs1).setWidth 32) ((s.loadReg s.rs2).setWidth 32)
  | .SUBW => SafeSub ((s.loadReg s.rs1).setWidth 32) ((s.loadReg s.rs2).setWidth 32)
  | .MULW => SafeMul ((s.loadReg s.rs1).setWidth 32) ((s.loadReg s.rs2).setWidth 32)
  | .ADDI | .ADDIW | .LB | .LH | .LW | .LBU | .LHU | .LWU | .LD | .SB | .SH | .SW | .SD | .JALR =>
      SafeAdd (s.loadReg s.rs1) s.imm
  | .AMOADDW => SafeAmo 32 (fun a b => SafeAdd (a.setWidth 32) (b.setWidth 32)) s
  | .AMOADDD => SafeAmo 64 SafeAdd s
  | _ => True

/-- Where it is safe, what is checked is what wraps; elsewhere it overflows. -/
structure Checks (checked : Except Stop (ReturnException × VEmu))
    (wrapping : Except Fault (ReturnException × VEmu)) (safe : Prop) : Prop where
  agrees : safe → checked = within wrapping
  overflows : ¬ safe → checked = .error .overflow

variable {host : Host} {s : VEmu} {sz : ℕ}

@[simp] lemma within_ok {α : Type} (a : α) : within (.ok a : Except Fault α) = .ok a := rfl

@[simp] lemma within_error {α : Type} (f : Fault) :
    within (.error f : Except Fault α) = .error (.fault f) := rfl

lemma within_bind {α β : Type} (x : Except Fault α) (f : α → Except Fault β) :
    within (x >>= f) = within x >>= fun a => within (f a) := by
  cases x <;> rfl

namespace Checks

variable {α : Type} {checked : Except Stop (ReturnException × VEmu)}
  {wrapping r : Except Fault (ReturnException × VEmu)} {safe safe' : Prop}

lemma of_within (x : Except Fault (ReturnException × VEmu)) : Checks (within x) x True :=
  ⟨fun _ => rfl, fun h => absurd trivial h⟩

lemma congr (h : Checks checked wrapping safe) (hsafe : safe ↔ safe') :
    Checks checked wrapping safe' :=
  ⟨fun hs => h.agrees (hsafe.mpr hs), fun hs => h.overflows (mt hsafe.mp hs)⟩

/-- Code that comes first, and may end the process in a fault. -/
lemma bind {x : Except Fault α} {c : α → Except Stop (ReturnException × VEmu)}
    {k : α → Except Fault (ReturnException × VEmu)} {P : α → Prop} (h : ∀ a, Checks (c a) (k a) (P a)) :
    Checks (within x >>= c) (x >>= k) (∀ a, x = .ok a → P a) := by
  cases x with
  | error f => exact ⟨fun _ => rfl, fun hno => absurd (fun a ha => by cases ha) hno⟩
  | ok a => exact (h a).congr (by simp)

/-- Code that may return first. -/
lemma ite {cond : Prop} [Decidable cond] (h : Checks checked wrapping safe) :
    Checks (if cond then within r else checked) (if cond then r else wrapping) (¬ cond → safe) := by
  by_cases hc : cond
  · rw [if_pos hc, if_pos hc]
    exact (of_within r).congr (by simp [hc])
  · rw [if_neg hc, if_neg hc]
    exact h.congr (by simp [hc])

end Checks

/-- An operation that comes first. -/
lemma checks_orFault {v? : Option U64} {v : U64} {safe : Prop} [Decidable safe]
    (hv : v? = if safe then some v else none) {next : U64 → Except Stop (ReturnException × VEmu)}
    {wrapping : Except Fault (ReturnException × VEmu)} (hnext : next v = within wrapping) :
    Checks (orFault .overflow v? >>= next) wrapping safe := by
  constructor
  · intro h
    rw [hv, if_pos h, orFault_some, ok_bind, hnext]
  · intro h
    rw [hv, if_neg h, orFault_none, error_bind]

/-- What is done with a checked result does not make it less safe. -/
lemma map_eq_ite {w v : ℕ} {x? : Option (BitVec w)} {x : BitVec w} {safe : Prop} [Decidable safe]
    (hx : x? = if safe then some x else none) (f : BitVec w → BitVec v) :
    x?.map f = if safe then some (f x) else none := by
  rw [hx]
  split_ifs <;> rfl

lemma loadUnsigned_checks (sz : ℕ) (s : VEmu) :
    Checks (loadUnsignedChecked sz s) (loadUnsigned sz s) (SafeAdd (s.loadReg s.rs1) s.imm) := by
  refine checks_orFault (intAdd_eq _ _) ?_
  rw [loadUnsigned, within_bind]
  congr 1
  funext r
  dsimp only
  split_ifs <;> rfl

lemma loadSigned_checks (bits sz : ℕ) (s : VEmu) :
    Checks (loadSignedChecked bits (loadUnsignedChecked sz) s) (loadSigned bits (loadUnsigned sz) s)
      (SafeAdd (s.loadReg s.rs1) s.imm) := by
  have hload := loadUnsigned_checks sz s
  constructor
  · intro h
    rw [loadSignedChecked, hload.agrees h, loadSigned, within_bind]
  · intro h
    rw [loadSignedChecked, hload.overflows h, error_bind]

lemma storeData_checks (sz : ℕ) (f : U64 → U64) (s : VEmu) :
    Checks (storeDataChecked sz f s) (storeData sz f s) (SafeAdd (s.loadReg s.rs1) s.imm) :=
  checks_orFault (intAdd_eq _ _) rfl

/-- A read-modify-write overflows where it comes to its operation, and that is not safe. -/
lemma amo_checks {f : U64 → U64 → Option U64} {g : U64 → U64 → U64} {safe : U64 → U64 → Prop}
    [∀ a b, Decidable (safe a b)] (hf : ∀ a b, f a b = if safe a b then some (g a b) else none)
    (old : U64 → U64) (s : VEmu) :
    Checks (amoChecked sz old f s) (amo sz old g s) (SafeAmo sz safe s) := by
  have hall : Checks (amoChecked sz old f s) (amo sz old g s)
      (¬ (!aligned (s.loadReg s.rs1) sz) = true → ∀ r, s.load (s.loadReg s.rs1) sz = .ok r →
        ¬ r.1.2 ≠ .NormalExecutionReturn → safe r.1.1 (r.2.loadReg r.2.rs2)) := by
    refine @Checks.ite _ _ (.ok (.LoadAddressMisaligned, s)) _ ((!aligned (s.loadReg s.rs1) sz) = true) _
      (Checks.bind fun r => ?_)
    refine @Checks.ite _ _ (.ok (r.1.2, r.2)) _ (r.1.2 ≠ .NormalExecutionReturn) _ ?_
    refine checks_orFault (hf r.1.1 (r.2.loadReg r.2.rs2)) ?_
    rw [within_bind]
    congr 1
    funext r'
    dsimp only
    split_ifs <;> rfl
  refine hall.congr ?_
  constructor
  · intro h hal old bus hload
    have hs : s.load (s.loadReg s.rs1) sz
        = .ok ((old, .NormalExecutionReturn), { s with bus := bus }) := by
      rw [load, hload]
      rfl
    exact h (by simp [hal]) _ hs (by simp)
  · intro h hal r hr hexp
    obtain ⟨⟨⟨old, exp⟩, bus⟩, hload, hr⟩ := bind_eq_ok_iff.mp hr
    obtain rfl := Except.ok.inj hr
    obtain rfl : exp = .NormalExecutionReturn := not_not.mp hexp
    exact h (by simpa using hal) old bus hload

/-- **Each handler** overflows exactly where its operands are not safe, and elsewhere is the handler
that wraps. -/
lemma checkedHandler_checks (host : Host) (n : IName) (s : VEmu) :
    Checks (checkedHandler host n s) (handler host n s) (SafeOperands s n) := by
  cases n <;> simp only [checkedHandler, handler, SafeOperands]
  case ADD => exact checks_orFault (intAdd_eq _ _) rfl
  case SUB => exact checks_orFault (intSub_eq _ _) rfl
  case MUL => exact checks_orFault (intMul_eq _ _) rfl
  case ADDW => exact checks_orFault (map_eq_ite (intAdd_eq _ _) _) rfl
  case SUBW => exact checks_orFault (map_eq_ite (intSub_eq _ _) _) rfl
  case MULW => exact checks_orFault (map_eq_ite (intMul_eq _ _) _) rfl
  case ADDI => exact checks_orFault (intAdd_eq _ _) rfl
  case ADDIW => exact checks_orFault (map_eq_ite (intAdd_eq _ _) _) rfl
  case LBU | LHU | LWU | LD => exact loadUnsigned_checks _ s
  case LB | LH | LW => exact loadSigned_checks _ _ s
  case SB | SH | SW | SD => exact storeData_checks _ _ s
  case JALR => exact checks_orFault (intAdd_eq _ _) rfl
  case AMOADDW => exact amo_checks (fun _ _ => map_eq_ite (intAdd_eq _ _) _) oldWord s
  case AMOADDD => exact amo_checks intAdd_eq id s
  all_goals exact Checks.of_within _

/-- **No handler overflows** exactly where its operands are safe. -/
theorem noOverflow_iff (host : Host) (n : IName) (s : VEmu) :
    checkedHandler host n s ≠ .error .overflow ↔ SafeOperands s n := by
  have hchecks := checkedHandler_checks host n s
  constructor
  · intro h
    by_contra hunsafe
    exact h (hchecks.overflows hunsafe)
  · intro hsafe
    rw [hchecks.agrees hsafe]
    cases handler host n s with
    | ok r => simp
    | error fault => simp

/-! ## The largest number, and one more -/

/-- `add x1, x2, x3`. -/
def summing (x2 x3 : U64) : VEmu :=
  { onePage 0 x2 with
    iregs := (RegFile.new.storeReg 2 x2).storeReg 3 x3
    currInstr := ⟨.R, .ADD, { Fields.zero with rd := 1, rs1 := 2, rs2 := 3 }, ""⟩ }

/-- The sum overflows. -/
theorem not_noOverflow_summing :
    (summing 0x7FFFFFFFFFFFFFFF 1).currInstr.name = .ADD
      ∧ checkedHandler (.bare .emu) .ADD (summing 0x7FFFFFFFFFFFFFFF 1) = .error .overflow
      ∧ ¬ ∀ host n s, checkedHandler host n s ≠ .error .overflow := by
  have hstop : checkedHandler (.bare .emu) .ADD (summing 0x7FFFFFFFFFFFFFFF 1) = .error .overflow :=
    (checkedHandler_checks _ .ADD _).overflows
      (show ¬ SafeAdd (0x7FFFFFFFFFFFFFFF : U64) 1 by decide +kernel)
  exact ⟨rfl, hstop, fun h => h _ _ _ hstop⟩

end VEmu

end Vemu
