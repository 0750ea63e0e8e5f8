import Vemu.Decoder.EncodeFloat
import Vemu.Lib.Transition
import Vemu.Refinement.Step
import Vemu.Softfloat.Handlers

/-!
# Whether the flags accrue

A flag of `FFLAGS` should stay set until the guest clears it, so that after any operations the
register is what it was, or-ed with what each of them raised.  The handlers write every flag anew: one
that the operation raised is set, and one that it did not raise is cleared.  With it go the upper 32
bits, since the complement of a flag is taken at 32 bits.  The flag of a division by zero is that of
the divisor, and only a division writes it.

So a flag survives an operation only if it is raised again, and over a sequence the register is what
it should be in every state exactly if every step meets that condition (**`accrues_iff`**).
-/

namespace Vemu

open Fallible Riscv Transition

namespace VEmu.Softfloat

variable {host : Host} {s s' : VEmu} {c : Csrs} {x : U64} {f : U8} {r : Bool} {k i : ℕ}

/-! ## One flag -/

/-- The flag register after one flag is written. -/
def flagged (raised : Bool) (bit : U32) (x : U64) : U64 :=
  if raised then x ||| bit.setWidth 64 else x &&& (~~~bit).setWidth 64

lemma reg_updateFlag (raised : Prop) [Decidable raised] (bit : U32) (c : Csrs) :
    (updateFlag raised bit c).reg fflags = flagged (decide raised) bit (c.reg fflags) := by
  unfold updateFlag flagged Csrs.set
  simp only [Function.update_self, decide_eq_true_iff]

/-- **What writing a flag does to each bit.**  Without the flag, the upper half is lost. -/
lemma getLsbD_flagged (hk : k < 32) (hi : i < 64) :
    (flagged r (BitVec.twoPow 32 k) x).getLsbD i
      = if i = k then r else x.getLsbD i && (r || decide (i < 32)) := by
  cases r with
  | true =>
      rw [flagged, if_pos rfl, BitVec.getLsbD_or, BitVec.getLsbD_setWidth, BitVec.getLsbD_twoPow]
      by_cases h : i = k
      · simp [h, hk]
        omega
      · simp [h, Ne.symm h]
  | false =>
      rw [flagged, if_neg (by simp), BitVec.getLsbD_and, BitVec.getLsbD_setWidth,
        BitVec.getLsbD_not, BitVec.getLsbD_twoPow]
      by_cases h : i = k
      · simp [h, hk]
      · by_cases h32 : i < 32
        · simp [h, Ne.symm h, h32, hi]
        · simp [h, h32]

/-! ## The flags of an operation -/

/-- The flags that every operation writes: inexact, underflow, overflow, invalid. -/
def writtenFlags : List ℕ := [0, 1, 2, 4]

/-- The flag register after the flags of an operation are written. -/
def updated (f : U8) (x : U64) : U64 :=
  flagged (f.getLsbD 4) 0x10 (flagged (f.getLsbD 2) 0x4 (flagged (f.getLsbD 1) 0x2
    (flagged (f.getLsbD 0) 0x1 x)))

lemma and_flag_ne_zero_iff : ∀ f : U8,
    (f &&& softfloatFlagInexact ≠ 0 ↔ f.getLsbD 0 = true)
      ∧ (f &&& softfloatFlagUnderflow ≠ 0 ↔ f.getLsbD 1 = true)
      ∧ (f &&& softfloatFlagOverflow ≠ 0 ↔ f.getLsbD 2 = true)
      ∧ (f &&& softfloatFlagInvalid ≠ 0 ↔ f.getLsbD 4 = true) := by
  decide +kernel

lemma reg_updateFloatFlags (f : U8) (c : Csrs) :
    (updateFloatFlags f c).reg fflags = updated f (c.reg fflags) := by
  obtain ⟨h0, h1, h2, h4⟩ := and_flag_ne_zero_iff f
  simp only [updateFloatFlags, updated, reg_updateFlag, h0, h1, h2, h4, Bool.decide_eq_true]

lemma getLsbD_updated (hi : i < 64) :
    (updated f x).getLsbD i
      = if i ∈ writtenFlags then f.getLsbD i
        else x.getLsbD i && (writtenFlags.all f.getLsbD || decide (i < 32)) := by
  have hbits : (0x1 : U32) = BitVec.twoPow 32 0 ∧ (0x2 : U32) = BitVec.twoPow 32 1
      ∧ (0x4 : U32) = BitVec.twoPow 32 2 ∧ (0x10 : U32) = BitVec.twoPow 32 4 := by
    decide
  obtain ⟨h0, h1, h2, h4⟩ := hbits
  rw [updated, h0, h1, h2, h4, getLsbD_flagged (by decide) hi, getLsbD_flagged (by decide) hi,
    getLsbD_flagged (by decide) hi, getLsbD_flagged (by decide) hi]
  by_cases hwritten : i ∈ writtenFlags
  · rw [if_pos hwritten]
    simp only [writtenFlags, List.mem_cons, List.not_mem_nil, or_false] at hwritten
    rcases hwritten with rfl | rfl | rfl | rfl <;> simp
  · rw [if_neg hwritten]
    simp only [writtenFlags, List.mem_cons, List.not_mem_nil, or_false, not_or] at hwritten
    obtain ⟨hi0, hi1, hi2, hi4⟩ := hwritten
    rw [if_neg hi4, if_neg hi2, if_neg hi1, if_neg hi0]
    by_cases h32 : i < 32
    · simp [h32]
    · simp [h32, writtenFlags, Bool.and_assoc]

/-! ## One step -/

/-- A step of a run: an operation and its registers, and what SoftFloat does in it. -/
structure FloatStep where
  lib : SoftFloat
  op : FArithOp
  rm : BitVec 3
  rd : Reg
  rs1 : Reg
  rs2 : Reg

namespace FloatStep

variable (i : FloatStep)

def word : U32 := (FInstr.arith i.op i.rm i.rd i.rs1 i.rs2).encode

/-- The function of SoftFloat that is called. -/
def call : U32 → U32 → U32 × U8 :=
  match i.op with
  | .FADDS => i.lib.f32Add
  | .FSUBS => i.lib.f32Sub
  | .FMULS => i.lib.f32Mul
  | .FDIVS => i.lib.f32Div

/-- The flags that SoftFloat raises. -/
def raised (s : VEmu) : U8 := (i.call (s.single i.rs1) (s.single i.rs2)).2

def dividesByZero (s : VEmu) : Bool := isequal (fabsf (s.single i.rs2)) 0

/-- The flag register after the step. -/
def flags (s : VEmu) (x : U64) : U64 :=
  if i.op = .FDIVS then flagged (i.dividesByZero s) 0x8 (updated (i.raised s) x)
  else updated (i.raised s) x

/-- The handler of a step: what it calls, and what it does to the flags after that. -/
lemma handler_arith (host : Host) :
    ∃ f after, handler i.lib host (arithName i.op) = floatArith f after
      ∧ (∀ a b, (f a b).2 = (i.call a b).2)
      ∧ ∀ op2 c, (after op2 c).reg fflags
        = if i.op = .FDIVS then flagged (isequal (fabsf op2) 0) 0x8 (c.reg fflags)
          else c.reg fflags := by
  obtain ⟨lib, op, rm, rd, rs1, rs2⟩ := i
  cases op with
  | FADDS =>
      have hhandler : handler lib host .FADDS = FADDS lib := rfl
      exact ⟨_, _, hhandler, fun _ _ => rfl, fun _ _ => (if_neg nofun).symm⟩
  | FSUBS =>
      have hhandler : handler lib host .FSUBS = FSUBS lib := rfl
      exact ⟨_, _, hhandler, fun _ _ => rfl, fun _ _ => (if_neg nofun).symm⟩
  | FMULS =>
      have hhandler : handler lib host .FMULS = FMULS lib := rfl
      exact ⟨_, _, hhandler, fun _ _ => rfl, fun _ _ => (if_neg nofun).symm⟩
  | FDIVS =>
      have hhandler : handler lib host .FDIVS = FDIVS lib := rfl
      refine ⟨_, _, hhandler, fun _ _ => rfl, fun op2 c => ?_⟩
      rw [reg_updateFlag, if_pos rfl, Bool.decide_eq_true]

/-- **What a step does to the emulator**: it goes through, and writes the flags. -/
lemma perform_eq (hs : s.Intact host) :
    ∃ s', perform i.lib host i.word s = .ok (.NormalExecutionReturn, s') ∧ s'.Intact host
      ∧ s'.csrs.reg fflags = i.flags s (s.csrs.reg fflags) := by
  obtain ⟨ins, hdec, hname, -, hrs1, hrs2⟩ := decode_arith i.rd i.rs1 i.rs2 i.op i.rm
  obtain ⟨f, after, hhandler, hraised, hafter⟩ := i.handler_arith host
  have hperform := Softfloat.perform_eq i.lib hs hdec (by rw [hname]; cases i.op <;> decide)
  rw [hname, hhandler] at hperform
  refine ⟨_, hperform, ⟨hs.instFuncs, hs.memory, hs.devices,
    (InstructionDecoder.decode_eq hs.decoder i.word).2⟩, ?_⟩
  change (after (s.single ins.f.rs2) (updateFloatFlags (f (s.single ins.f.rs1)
    (s.single ins.f.rs2)).2 s.csrs)).reg fflags = _
  rw [hafter, reg_updateFloatFlags, hraised, hrs1, hrs2]
  rfl

/-- No flag that the step writes is cleared. -/
def clearsNone (s : VEmu) : Bool :=
  writtenFlags.all (i.raised s).getLsbD && (i.op ≠ .FDIVS || i.dividesByZero s)

/-- **The flag register after a step**, bit by bit. -/
lemma getLsbD_flags {k : ℕ} (hk : k < 64) :
    (i.flags s x).getLsbD k
      = if k ∈ writtenFlags then (i.raised s).getLsbD k
        else if k = 3 then if i.op = .FDIVS then i.dividesByZero s else x.getLsbD 3
        else x.getLsbD k && (i.clearsNone s || decide (k < 32)) := by
  have hsmall : k ∈ writtenFlags → k ≠ 3 ∧ k < 32 := by
    simp only [writtenFlags, List.mem_cons, List.not_mem_nil, or_false]
    omega
  unfold flags
  by_cases hop : i.op = .FDIVS
  · have hbit : (0x8 : U32) = BitVec.twoPow 32 3 := by decide
    rw [if_pos hop, hbit, getLsbD_flagged (by decide) hk, getLsbD_updated hk]
    by_cases hwritten : k ∈ writtenFlags
    · obtain ⟨hne, hlt⟩ := hsmall hwritten
      simp [hwritten, hne, hlt]
    · by_cases h3 : k = 3
      · simp [h3, hop, writtenFlags]
      · by_cases h32 : k < 32
        · simp [hwritten, h3, h32]
        · simp [hwritten, h3, h32, clearsNone, hop, Bool.and_assoc]
  · rw [if_neg hop, getLsbD_updated hk]
    by_cases hwritten : k ∈ writtenFlags
    · simp [hwritten]
    · by_cases h3 : k = 3
      · simp [h3, hop, writtenFlags]
      · simp [hwritten, h3, clearsNone, hop]

/-! ### When it accrues -/

/-- The flags that there are, among those that are raised. -/
def raisedFlags (s : VEmu) : U64 := (i.raised s &&& 0x1F).setWidth 64

lemma getLsbD_raisedFlags {k : ℕ} (hk : k < 64) :
    (i.raisedFlags s).getLsbD k = (decide (k < 5) && (i.raised s).getLsbD k) := by
  have hmask : (0x1F : U8).getLsbD k = decide (k < 5) := by
    by_cases h8 : k < 8
    · revert k
      decide
    · rw [BitVec.getLsbD_of_ge _ _ (Nat.le_of_not_lt h8)]
      simp
      omega
  rw [raisedFlags, BitVec.getLsbD_setWidth, BitVec.getLsbD_and, hmask]
  simp [hk, Bool.and_comm]

/-- **The condition on a step.**  Every flag that is set and written is raised again.  The flag of a
division by zero comes to what it was, or-ed with what is raised.  And nothing is set above the low
32 bits, unless no flag is cleared. -/
structure Accrues (s : VEmu) (i : FloatStep) : Prop where
  raisedAgain : ∀ k ∈ writtenFlags,
    (s.csrs.reg fflags).getLsbD k = true → (i.raised s).getLsbD k = true
  byZero : (if i.op = .FDIVS then i.dividesByZero s else (s.csrs.reg fflags).getLsbD 3)
    = ((s.csrs.reg fflags).getLsbD 3 || (i.raised s).getLsbD 3)
  upper : (∀ k, 32 ≤ k → (s.csrs.reg fflags).getLsbD k = false) ∨ i.clearsNone s = true

/-- The register is what it should be exactly if every bit is. -/
lemma flags_eq_iff_bits :
    i.flags s x = x ||| i.raisedFlags s ↔ ∀ k < 64, (i.flags s x).getLsbD k
      = (x.getLsbD k || (decide (k < 5) && (i.raised s).getLsbD k)) := by
  constructor
  · intro h k hk
    rw [h, BitVec.getLsbD_or, getLsbD_raisedFlags i hk]
  · intro h
    apply BitVec.eq_of_getLsbD_eq
    intro k hk
    rw [h k hk, BitVec.getLsbD_or, getLsbD_raisedFlags i hk]

lemma lt_of_mem_writtenFlags : ∀ k ∈ writtenFlags, k < 5 := by decide

lemma Accrues.flags_eq (h : Accrues s i) :
    i.flags s (s.csrs.reg fflags) = s.csrs.reg fflags ||| i.raisedFlags s := by
  rw [flags_eq_iff_bits]
  intro k hk
  rw [getLsbD_flags i hk]
  by_cases hmem : k ∈ writtenFlags
  · have hagain := h.raisedAgain k hmem
    rw [if_pos hmem, decide_eq_true (lt_of_mem_writtenFlags k hmem), Bool.true_and]
    cases hset : (s.csrs.reg fflags).getLsbD k with
    | false => rw [Bool.false_or]
    | true => rw [Bool.true_or, hagain hset]
  · rw [if_neg hmem]
    by_cases h3 : k = 3
    · subst h3
      rw [if_pos rfl, h.byZero]
      rfl
    · have hk5 : ¬ k < 5 := by
        simp only [writtenFlags, List.mem_cons, List.not_mem_nil, or_false] at hmem
        omega
      rw [if_neg h3, decide_eq_false hk5, Bool.false_and, Bool.or_false]
      by_cases h32 : k < 32
      · simp [h32]
      · rcases h.upper with hzero | hclears
        · rw [hzero k (by omega), Bool.false_and]
        · rw [hclears, Bool.true_or, Bool.and_true]

lemma accrues_of_flags_eq
    (h : i.flags s (s.csrs.reg fflags) = s.csrs.reg fflags ||| i.raisedFlags s) : Accrues s i := by
  have hbit := i.flags_eq_iff_bits.mp h
  refine ⟨fun k hmem hset => ?_, ?_, ?_⟩
  · have hk5 := lt_of_mem_writtenFlags k hmem
    have hkbit := hbit k (by omega)
    rw [getLsbD_flags i (by omega), if_pos hmem, hset, Bool.true_or] at hkbit
    exact hkbit
  · have hthird := hbit 3 (by decide)
    rwa [getLsbD_flags i (by decide), if_neg (by decide), if_pos rfl] at hthird
  · -- a bit above, in a step that clears a flag, would be lost
    by_contra hupper
    obtain ⟨hset, hclears⟩ := not_or.mp hupper
    push Not at hset
    obtain ⟨k, h32, hk⟩ := hset
    have hk : (s.csrs.reg fflags).getLsbD k = true := by simpa using hk
    have hk64 : k < 64 := by
      by_contra hge
      rw [BitVec.getLsbD_of_ge _ _ (Nat.le_of_not_lt hge)] at hk
      cases hk
    have hmem : k ∉ writtenFlags := fun hmem => by
      have := lt_of_mem_writtenFlags k hmem
      omega
    have hkbit := hbit k hk64
    rw [getLsbD_flags i hk64, if_neg hmem, if_neg (by omega), hk, Bool.true_or, Bool.true_and,
      Bool.eq_false_iff.mpr hclears] at hkbit
    simp only [Bool.false_or, decide_eq_true_iff] at hkbit
    omega

/-- **One step accrues** exactly under the condition. -/
lemma flags_eq_iff :
    i.flags s (s.csrs.reg fflags) = s.csrs.reg fflags ||| i.raisedFlags s ↔ Accrues s i :=
  ⟨i.accrues_of_flags_eq, fun h => h.flags_eq⟩

/-- A clear register is no obstacle to an operation that does not divide. -/
lemma accrues_of_clear (hclear : s.csrs.reg fflags = 0) (hop : i.op ≠ .FDIVS)
    (h3 : (i.raised s).getLsbD 3 = false) : Accrues s i := by
  have hbits : ∀ k, (s.csrs.reg fflags).getLsbD k = false := by
    intro k
    rw [hclear]
    exact BitVec.getLsbD_zero
  refine ⟨fun k _ hset => ?_, ?_, Or.inl fun k _ => hbits k⟩
  · rw [hbits k] at hset
    cases hset
  · rw [if_neg hop, hbits 3, h3]
    rfl

end FloatStep

/-! ## Runs -/

/-- An emulator, and what its flag register should hold. -/
structure Accrual where
  vm : VEmu
  due : U64

namespace Accrual

variable {t t' : Accrual} {step : FloatStep}

/-- At the start, what it does hold. -/
def start (s : VEmu) : Accrual := ⟨s, s.csrs.reg fflags⟩

/-- A step adds the flags that it raises. -/
def apply (host : Host) (t : Accrual) (step : FloatStep) : Except Fault Accrual := do
  let (_, s) ← perform step.lib host step.word t.vm
  return ⟨s, t.due ||| step.raisedFlags t.vm⟩

/-- The register holds what it should. -/
def Accrued (t : Accrual) : Prop := t.vm.csrs.reg fflags = t.due

lemma apply_eq (ht : t.vm.Intact host) (step : FloatStep) :
    ∃ s', apply host t step = .ok ⟨s', t.due ||| step.raisedFlags t.vm⟩ ∧ s'.Intact host
      ∧ s'.csrs.reg fflags = step.flags t.vm (t.vm.csrs.reg fflags) := by
  obtain ⟨s', hperform, hintact, hflags⟩ := step.perform_eq ht
  refine ⟨s', ?_, hintact, hflags⟩
  rw [apply, hperform]
  rfl

lemma intact_apply (ht : t.vm.Intact host) (h : apply host t step = .ok t') :
    t'.vm.Intact host := by
  obtain ⟨s', happly, hintact, -⟩ := apply_eq ht step
  obtain rfl := Except.ok.inj (happly.symm.trans h)
  exact hintact

/-- **The step lemma.** -/
lemma accrued_apply_iff (ht : t.vm.Intact host) (hdue : t.Accrued)
    (h : apply host t step = .ok t') : t'.Accrued ↔ FloatStep.Accrues t.vm step := by
  obtain ⟨s', happly, -, hflags⟩ := apply_eq ht step
  obtain rfl := Except.ok.inj (happly.symm.trans h)
  rw [Accrued, hflags, ← hdue]
  exact step.flags_eq_iff

/-- **The run lemma.** -/
lemma allStates_iff (hs : s.Intact host) (steps : List FloatStep) :
    AllStates (apply host) Accrued (start s) steps
      ↔ AllSteps (apply host) (fun t step => FloatStep.Accrues t.vm step) (start s) steps :=
  allStates_iff_allSteps (fun _ _ _ ht h => intact_apply ht h)
    (fun _ _ _ ht hdue h => accrued_apply_iff ht hdue h) steps hs rfl

/-- No operation fails. -/
lemma exists_run (ht : t.vm.Intact host) (steps : List FloatStep) :
    ∃ t', steps.foldlM (apply host) t = .ok t' := by
  induction steps generalizing t with
  | nil => exact ⟨t, rfl⟩
  | cons step steps ih =>
      obtain ⟨s', happly, hintact, -⟩ := apply_eq ht step
      rw [List.foldlM_cons, happly]
      exact ih hintact

end Accrual

/-- **The flags accrue** over a sequence of operations, in every state that it reaches, exactly if
every step raises again what it would clear; and every sequence goes through. -/
theorem accrues_iff (host : Host) (s : VEmu) (hs : s.Intact host) (steps : List FloatStep) :
    (∃ t, steps.foldlM (Accrual.apply host) (.start s) = .ok t)
      ∧ (AllStates (Accrual.apply host) Accrual.Accrued (.start s) steps
        ↔ AllSteps (Accrual.apply host) (fun t step => FloatStep.Accrues t.vm step) (.start s)
            steps) :=
  ⟨Accrual.exists_run hs steps, Accrual.allStates_iff hs steps⟩

/-! ### An inexact sum and an exact one -/

/-- An emulator with 1 in its first float register, and a number too small to be added in its
second. -/
def oneAndLittle : VEmu :=
  { onePage 0 0 with
    fregs := fun r => toDouble (if r = 1 then 0x3F800000 else if r = 2 then 0x30800000 else 0) }

lemma intact_oneAndLittle : oneAndLittle.Intact (.bare .fuzz) :=
  (intact_onePage 0 0).withFregs _

/-- A SoftFloat for sums that come to their first operand. -/
def adding (flags : U8) : SoftFloat := { SoftFloat.idle with f32Add := fun x _ => (x, flags) }

/-- The sum with the small number, which is rounded. -/
def inexactSum : FloatStep := ⟨adding 1, .FADDS, 0, 5, 1, 2⟩

/-- The sum with zero. -/
def exactSum : FloatStep := ⟨adding 0, .FADDS, 0, 5, 1, 3⟩

/-- The exact sum, and then the inexact one. -/
theorem accrues_exact_inexact :
    (∃ t, [exactSum, inexactSum].foldlM (Accrual.apply (.bare .fuzz)) (.start oneAndLittle) = .ok t)
      ∧ AllStates (Accrual.apply (.bare .fuzz)) Accrual.Accrued (.start oneAndLittle)
        [exactSum, inexactSum] := by
  have h := accrues_iff (.bare .fuzz) oneAndLittle intact_oneAndLittle [exactSum, inexactSum]
  refine ⟨h.1, h.2.mpr fun t ht => ⟨?_, fun _ _ => ⟨?_, trivial⟩⟩⟩
  · exact FloatStep.accrues_of_clear _ rfl nofun rfl
  · obtain ⟨s', happly, -, hflags⟩ := @Accrual.apply_eq _ (.start oneAndLittle)
      intact_oneAndLittle exactSum
    obtain rfl := Except.ok.inj (happly.symm.trans ht)
    have hclear : exactSum.flags oneAndLittle 0 = 0 := by decide
    have hraised : (inexactSum.raised s').getLsbD 3 = (1 : U8).getLsbD 3 := rfl
    exact FloatStep.accrues_of_clear _ (hflags.trans hclear) nofun (hraised.trans (by decide))

/-- The exact sum clears what the inexact one raised. -/
theorem not_accrues_inexact_exact :
    ∃ t, [inexactSum, exactSum].foldlM (Accrual.apply (.bare .fuzz)) (.start oneAndLittle) = .ok t
      ∧ t.vm.csrs.reg fflags = 0 ∧ t.due = 1
      ∧ ¬ AllStates (Accrual.apply (.bare .fuzz)) Accrual.Accrued (.start oneAndLittle)
        [inexactSum, exactSum] := by
  have hview : ([inexactSum, exactSum].foldlM (Accrual.apply (.bare .fuzz)) (.start oneAndLittle)
      >>= fun t => .ok (t.vm.csrs.reg fflags, t.due)) = .ok (0, 1) := by
    decide +kernel
  obtain ⟨t, hrun, hread⟩ := Fallible.bind_eq_ok_iff.mp hview
  obtain ⟨hflags, hdue⟩ := Prod.mk.inj (Except.ok.inj hread)
  refine ⟨t, hrun, hflags, hdue, fun h => ?_⟩
  have hlast : t.vm.csrs.reg fflags = t.due := h.last hrun
  rw [hflags, hdue] at hlast
  exact absurd hlast (by decide)

end VEmu.Softfloat

end Vemu
