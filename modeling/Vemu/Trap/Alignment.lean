import Vemu.Trap.Rounds

/-!
# Where instructions are fetched

There are no compressed instructions, so every instruction should be fetched at a multiple of
four, and a branch, a jump or a trap return to another address should report
`InstructionAddressMisaligned` (`FetchesAligned`).  The loop knows that report, and ends the
process at it.

Nothing makes it.  The branches and the returns go wherever they are told, `JALR` clears one bit,
and so do the entries of the handlers.  So a run that starts at a multiple of four stays at them
exactly if nothing ever asks it to go elsewhere (**`fetchesAligned_iff`**).
-/

namespace Vemu

open Fallible Transition

namespace VEmu

variable {shift : U64 → Bool} {host : Host} {s s' f t t' : VEmu} {e : ReturnException} {a : U64}

/-! ## Addresses -/

/-- A multiple of four. -/
def IsWordAddr (a : U64) : Prop := a.toNat % 4 = 0

instance (a : U64) : Decidable (IsWordAddr a) := inferInstanceAs (Decidable (_ = _))

lemma isWordAddr_add_four : IsWordAddr (a + 4) ↔ IsWordAddr a := by
  have hfour : (4 : U64).toNat = 4 := rfl
  rw [IsWordAddr, IsWordAddr, BitVec.toNat_add, hfour]
  omega

lemma isWordAddr_sub_four : IsWordAddr (a - 4) ↔ IsWordAddr a := by
  rw [← isWordAddr_add_four, BitVec.sub_add_cancel]

/-! ## Transfers of control -/

/-- The target of a branch, if it is taken. -/
def branchTarget (taken : U64 → U64 → Bool) (s : VEmu) : Option U64 :=
  if taken (s.loadReg s.rs1) (s.loadReg s.rs2) then some (s.pc + s.imm) else none

/-- Where the current instruction transfers control to, if it does. -/
def target (s : VEmu) : Option U64 :=
  match s.currInstr.name with
  | .BEQ => branchTarget (fun a b => a = b) s
  | .BNE => branchTarget (fun a b => a ≠ b) s
  | .BLT => branchTarget (fun a b => a.slt b) s
  | .BGE => branchTarget (fun a b => b.sle a) s
  | .BLTU => branchTarget (fun a b => a < b) s
  | .BGEU => branchTarget (fun a b => b ≤ a) s
  | .JAL => some (s.pc + s.imm)
  | .JALR => some ((s.loadReg s.rs1 + s.imm) &&& ~~~1)
  | .MRET => some (s.csrs.loadCsr mepc)
  | .SRET => some (s.csrs.loadCsr sepc)
  | _ => none

/-- The program counter that a handler leaves, for the loop to add four to. -/
def Lands (s s' : VEmu) : Option U64 → Prop
  | some a => s'.pc = a - 4
  | none => s'.pc = s.pc

lemma lands_branch (taken : U64 → U64 → Bool) (h : branch taken s = .ok (e, s')) :
    e = .NormalExecutionReturn ∧ Lands s s' (branchTarget taken s) := by
  obtain ⟨rfl, rfl⟩ := Prod.mk.inj (Except.ok.inj h)
  unfold branchTarget
  split_ifs
  · exact ⟨rfl, rfl⟩
  · exact ⟨rfl, rfl⟩

/-- The other instructions have no target. -/
lemma target_eq_none (hjump : isJump s.currInstr.name = false) (hmret : s.currInstr.name ≠ .MRET)
    (hsret : s.currInstr.name ≠ .SRET) : s.target = none := by
  unfold target
  generalize s.currInstr.name = n at hjump hmret hsret
  cases n <;> first | rfl | contradiction

/-- **No system call** touches the program counter. -/
lemma ecallFuzz_pc (host : Host) : Preserves pc (ecallFuzz host) := fun s e s' h => by
  unfold ecallFuzz at h
  dsimp only at h
  split_ifs at h
  · rw [sysBrk_eq] at h
    split_ifs at h
    · exact preserves_normal h rfl
    · obtain ⟨r, -, h⟩ := bind_eq_ok_iff.mp h
      exact preserves_normal h rfl
  · exact preserves_normal h rfl
  · obtain ⟨p, -, h⟩ := bind_eq_ok_iff.mp h
    obtain ⟨file, -, h⟩ := bind_eq_ok_iff.mp h
    obtain ⟨_, -, h⟩ := bind_eq_ok_iff.mp h
    obtain ⟨_, -, h⟩ := bind_eq_ok_iff.mp h
    obtain ⟨_, -, h⟩ := bind_eq_ok_iff.mp h
    exact preserves_normal h rfl
  · unfold sysClose at h
    dsimp only at h
    split_ifs at h
    · exact preserves_normal h rfl
    · exact preserves_normal h rfl
  · exact preserves_normal h rfl
  · obtain ⟨_, -, h⟩ := bind_eq_ok_iff.mp h
    obtain ⟨last, -, h⟩ := bind_eq_ok_iff.mp h
    obtain ⟨mmu, -, h⟩ := bind_eq_ok_iff.mp h
    exact preserves_normal h rfl
  · unfold sysLseek at h
    dsimp only at h
    split at h
    · obtain ⟨idx, -, h⟩ := bind_eq_ok_iff.mp h
      exact preserves_normal h rfl
    · exact preserves_normal h rfl
  · unfold sysRead at h
    dsimp only at h
    split at h
    · split_ifs at h
      · exact preserves_normal h rfl
      · obtain ⟨data, -, h⟩ := bind_eq_ok_iff.mp h
        obtain ⟨mmu, -, h⟩ := bind_eq_ok_iff.mp h
        exact preserves_normal h rfl
    · cases h

lemma ecall_pc (host : Host) : Preserves pc (handler host .ECALL) := by
  simp only [handler]
  cases host.build with
  | fuzz => exact ecallFuzz_pc host
  | test => exact fun s _ _ h => preserves_normal h rfl
  | emu =>
      intro s e s' h
      change ecallEmu s = .ok (e, s') at h
      unfold ecallEmu at h
      split at h
      all_goals exact preserves_return h rfl

/-- Neither does any other handler that is not a transfer of control. -/
lemma straight_pc {n : IName} (hjump : isJump n = false) (hmret : n ≠ .MRET) (hsret : n ≠ .SRET)
    (h : handler host n s = .ok (e, s')) : s'.pc = s.pc := by
  have hview : Unseen pc := .of_bus (fun _ _ => rfl) fun _ _ => rfl
  by_cases hecall : n = .ECALL
  · subst hecall
    exact ecall_pc host s e s' h
  · cases hdiv : isDividing n with
    | true =>
        obtain ⟨f, hf⟩ := exists_dividing host hdiv
        exact hview.dividing (fun _ _ => rfl) f s e s' (hf ▸ h)
    | false =>
        cases hcsr : isCsrModify n with
        | true =>
            obtain ⟨operand, f, hf⟩ := exists_csrModify host hcsr
            exact hview.csrModify (fun _ _ => rfl) operand f s e s' (hf ▸ h)
        | false =>
            have henv : isEnvironment n = false := by cases n <;> first | rfl | contradiction
            exact hview.straight.handler host hjump hdiv hcsr henv s e s' h

/-- The branches and the jumps. -/
lemma jump_lands (hjump : isJump s.currInstr.name = true)
    (h : handler host s.currInstr.name s = .ok (e, s')) :
    e = .NormalExecutionReturn ∧ Lands s s' s.target := by
  unfold target
  generalize s.currInstr.name = n at hjump h
  cases n <;> simp only [isJump, reduceCtorEq] at hjump
  case JAL | JALR =>
    obtain ⟨rfl, rfl⟩ := Prod.mk.inj (Except.ok.inj h)
    exact ⟨rfl, rfl⟩
  all_goals exact lands_branch _ h

/-- **One handler**: a transfer of control reports a normal return and goes to its target, and no
other handler moves the program counter. -/
lemma handler_lands (h : handler host s.currInstr.name s = .ok (e, s')) :
    Lands s s' s.target ∧ (s.target ≠ none → e = .NormalExecutionReturn) := by
  cases hjump : isJump s.currInstr.name with
  | true =>
      obtain ⟨he, hlands⟩ := jump_lands hjump h
      exact ⟨hlands, fun _ => he⟩
  | false =>
      by_cases hmret : s.currInstr.name = .MRET
      · rw [hmret] at h
        obtain ⟨mode, -, h⟩ := bind_eq_ok_iff.mp h
        obtain ⟨rfl, rfl⟩ := Prod.mk.inj (Except.ok.inj h)
        rw [target, hmret]
        exact ⟨rfl, fun _ => rfl⟩
      · by_cases hsret : s.currInstr.name = .SRET
        · rw [hsret] at h
          obtain ⟨rfl, rfl⟩ := Prod.mk.inj (Except.ok.inj h)
          rw [target, hsret]
          exact ⟨rfl, fun _ => rfl⟩
        · rw [target_eq_none hjump hmret hsret]
          exact ⟨straight_pc hjump hmret hsret h, fun hsome => absurd rfl hsome⟩

/-! ## One round -/

/-- Outside the fuzzing build an exception moves the program counter to its handler. -/
lemma pc_finishAs (h : finishAs shift host s e = .ok s') :
    s'.pc = if host.build ≠ .fuzz ∧ e ≠ .NormalExecutionReturn then exceptionHandler shift s e - 4
      else s.pc := by
  unfold finishAs at h
  split_ifs at h with hb
  · rw [if_neg fun hcond => hcond.1 hb]
    unfold afterwards at h
    split_ifs at h
    · rw [Except.ok.inj h]
    · obtain ⟨s₁, -, h⟩ := bind_eq_ok_iff.mp h
      cases h
    · obtain ⟨s₁, htrap, h⟩ := bind_eq_ok_iff.mp h
      obtain rfl := Except.ok.inj h
      rw [trap, if_pos rfl] at htrap
      rw [Except.ok.inj htrap]
  · split_ifs with hcond
    · rcases afterwardsAs_cases h with ⟨he, -⟩ | ⟨-, -, rfl⟩
      · exact absurd he hcond.2
      · exact pc_enterAs _ _ _
    · rcases afterwardsAs_cases h with ⟨-, rfl⟩ | ⟨he, -, -⟩
      · rfl
      · exact absurd ⟨hb, he⟩ hcond

/-- The fetch is where the round began, or four before the handler of an interrupt. -/
lemma pc_headAs (h : headAs shift host s = .ok (.next f)) :
    (f.pc = s.pc ∧ ∀ i s₁, host.build ≠ .fuzz → s.checkPendingInterrupt = .ok (i, s₁) →
        i = .NoInterrupt)
      ∨ ∃ i s₁, host.build ≠ .fuzz ∧ s.checkPendingInterrupt = .ok (i, s₁) ∧ i ≠ .NoInterrupt
        ∧ f.pc = interruptHandler shift s₁ i - 4 := by
  obtain ⟨-, hpoll, -⟩ := headAs_cases h
  unfold pollAs at hpoll
  split_ifs at hpoll with hb
  · rw [Except.ok.inj hpoll]
    exact Or.inl ⟨rfl, fun _ _ hne => absurd hb hne⟩
  · obtain ⟨⟨i, s₁⟩, hcheck, hpoll⟩ := bind_eq_ok_iff.mp hpoll
    obtain rfl := Except.ok.inj hpoll
    split_ifs with hi
    · have hsame : s₁.pc = s.pc := by
        obtain ⟨csrs, devices, -, rfl⟩ := checkPendingInterrupt_frame hcheck
        rfl
      refine Or.inl ⟨hsame, fun j s₂ _ hcheck' => ?_⟩
      rw [hcheck'] at hcheck
      exact (Prod.mk.inj (Except.ok.inj hcheck)).1.trans hi
    · exact Or.inr ⟨i, s₁, hb, hcheck, hi, pc_enterAs _ _ _⟩

/-- **The specification of a round.** -/
structure FetchesAligned (shift : U64 → Bool) (host : Host) (s : VEmu) : Prop where
  fetch : ∀ f, headAs shift host s = .ok (.next f) → IsWordAddr f.pc
  transfer : ∀ f t e t' a, headAs shift host s = .ok (.next f) → callAs shift host f = .ok t →
    dispatch host t.currInstr.name t = .ok (e, t') → t.target = some a → ¬ IsWordAddr a →
    e = .InstructionAddressMisaligned

/-- The condition: wherever the round is told to go is a multiple of four. -/
structure StaysAligned (shift : U64 → Bool) (host : Host) (s : VEmu) : Prop where
  interrupt : ∀ f i s₁, headAs shift host s = .ok (.next f) → host.build ≠ .fuzz →
    s.checkPendingInterrupt = .ok (i, s₁) → i ≠ .NoInterrupt →
    IsWordAddr (interruptHandler shift s₁ i)
  transfer : ∀ turn c a, roundNoting shift host s = .ok (turn, some c) → c.called.target = some a →
    IsWordAddr a
  trap : ∀ turn c, roundNoting shift host s = .ok (turn, some c) → host.build ≠ .fuzz →
    c.report ≠ .NormalExecutionReturn → IsWordAddr (exceptionHandler shift c.left c.report)
  /-- After a trap out of the fetch, another word is executed, four before the handler. -/
  fetchTrap : ∀ turn c w exp, roundNoting shift host s = .ok (turn, some c) → host.build ≠ .fuzz →
    c.fetched.fetch host = .ok ((w, exp), c.fetched) → exp ≠ .NormalExecutionReturn →
    c.called.target = none → c.report = .NormalExecutionReturn →
    IsWordAddr (exceptionHandler shift c.fetched exp)

/-- The program counter after a call. -/
lemma Call.Made.pc {c : Call} (hc : c.Made shift host) :
    (∃ a, c.called.target = some a ∧ c.report = .NormalExecutionReturn ∧ c.left.pc = a - 4)
      ∨ c.called.target = none ∧ c.left.pc = c.called.pc := by
  obtain ⟨hlands, hnormal⟩ := handler_lands hc.left
  cases htarget : c.called.target with
  | none =>
      rw [htarget] at hlands
      exact Or.inr ⟨rfl, hlands⟩
  | some a =>
      rw [htarget] at hlands
      exact Or.inl ⟨a, rfl, hnormal (by simp [htarget]), hlands⟩

/-- What a round that meets its specification and leaves a multiple of four was told. -/
lemma FetchesAligned.stays (hfetches : FetchesAligned shift host s)
    (hnext : ∀ s' call, roundNoting shift host s = .ok (.next s', call) → IsWordAddr s'.pc) :
    StaysAligned shift host s := by
  have hturn : ∀ {turn c}, roundNoting shift host s = .ok (turn, some c) →
      headAs shift host s = .ok (.next c.fetched) ∧ c.Made shift host
        ∧ ∃ s', finishAs shift host c.left c.report = .ok s' ∧ IsWordAddr s'.pc := by
    intro turn c h
    rcases roundNoting_cases h with ⟨code, -, hnone⟩ | ⟨c', s', hsome, hhead, hmade, hfinish, rfl⟩
    · cases hnone
    · obtain rfl := Option.some.inj hsome
      exact ⟨hhead, hmade, s', hfinish, isWordAddr_add_four.mp (hnext _ _ h)⟩
  refine ⟨fun f i s₁ hhead hb hcheck hi => ?_, fun turn c a h htarget => ?_,
    fun turn c h hb he => ?_, fun turn c w exp h hb hfetch hexp htarget he => ?_⟩
  · have hword := hfetches.fetch f hhead
    rcases pc_headAs hhead with ⟨-, hnone⟩ | ⟨j, s₂, -, hcheck', -, hpc⟩
    · exact absurd (hnone i s₁ hb hcheck) hi
    · rw [hcheck] at hcheck'
      obtain ⟨rfl, rfl⟩ := Prod.mk.inj (Except.ok.inj hcheck')
      exact isWordAddr_sub_four.mp (hpc ▸ hword)
  · obtain ⟨hhead, hmade, -⟩ := hturn h
    by_contra hmis
    have hdispatch : dispatch host c.called.currInstr.name c.called = .ok (c.report, c.left) := by
      rw [dispatch, dispatchWith, if_pos hmade.known]
      exact hmade.left
    have hreport := hfetches.transfer _ _ _ _ a hhead hmade.called hdispatch htarget hmis
    rw [(handler_lands hmade.left).2 (by simp [htarget])] at hreport
    cases hreport
  · obtain ⟨-, -, s', hfinish, hword⟩ := hturn h
    rw [pc_finishAs hfinish, if_pos ⟨hb, he⟩] at hword
    exact isWordAddr_sub_four.mp hword
  · obtain ⟨-, hmade, s', hfinish, hword⟩ := hturn h
    rw [pc_finishAs hfinish, if_neg fun hcond => hcond.2 he] at hword
    rcases hmade.pc with ⟨a, hsome, -⟩ | ⟨-, hpc⟩
    · simp [htarget] at hsome
    · obtain ⟨w', exp', t₀, ins, hfetch', htrap, -, hcalled⟩ := callAs_cases hmade.called
      rw [hfetch] at hfetch'
      obtain ⟨-, rfl⟩ := Prod.mk.inj (Prod.mk.inj (Except.ok.inj hfetch')).1
      have hpc₀ : c.called.pc = t₀.pc := by rw [hcalled]
      rw [hpc, hpc₀, pc_finishAs htrap, if_pos ⟨hb, hexp⟩] at hword
      exact isWordAddr_sub_four.mp hword

/-- The fetch of a round that is told to go to multiples of four only. -/
lemma StaysAligned.fetch (hstays : StaysAligned shift host s) (hpc : IsWordAddr s.pc)
    (h : headAs shift host s = .ok (.next f)) : IsWordAddr f.pc := by
  rcases pc_headAs h with ⟨heq, -⟩ | ⟨i, s₁, hb, hcheck, hi, heq⟩
  · exact heq ▸ hpc
  · rw [heq]
    exact isWordAddr_sub_four.mpr (hstays.interrupt f i s₁ h hb hcheck hi)

/-- The next round begins at a multiple of four. -/
lemma StaysAligned.next {call : Option Call} (hstays : StaysAligned shift host s)
    (hpc : IsWordAddr s.pc) (h : roundNoting shift host s = .ok (.next s', call)) :
    IsWordAddr s'.pc := by
  rcases roundNoting_cases h with ⟨code, hcode, -⟩ | ⟨c, s₁, rfl, hhead, hmade, hfinish, hturn⟩
  · cases hcode
  · obtain rfl := Turn.next.inj hturn
    refine isWordAddr_add_four.mpr ?_
    rw [pc_finishAs hfinish]
    split_ifs with hcond
    · exact isWordAddr_sub_four.mpr (hstays.trap _ c h hcond.1 hcond.2)
    · rcases hmade.pc with ⟨a, htarget, -, hleft⟩ | ⟨htarget, hleft⟩
      · rw [hleft]
        exact isWordAddr_sub_four.mpr (hstays.transfer _ c a h htarget)
      · obtain ⟨w, exp, t₀, ins, hfetch, htrap, -, hcalled⟩ := callAs_cases hmade.called
        have hpc₀ : c.called.pc = t₀.pc := by rw [hcalled]
        rw [hleft, hpc₀, pc_finishAs htrap]
        split_ifs with hfetched
        · have hnormal : c.report = .NormalExecutionReturn :=
            by_contra fun he => hcond ⟨hfetched.1, he⟩
          exact isWordAddr_sub_four.mpr
            (hstays.fetchTrap _ c w exp h hfetched.1 hfetch hfetched.2 htarget hnormal)
        · exact hstays.fetch hpc hhead

/-- A transfer of control is noted, for the loop goes on after it. -/
lemma StaysAligned.transfers (hstays : StaysAligned shift host s) {t t' : VEmu}
    (hhead : headAs shift host s = .ok (.next f)) (hcall : callAs shift host f = .ok t)
    (h : dispatch host t.currInstr.name t = .ok (e, t')) (htarget : t.target = some a) :
    IsWordAddr a := by
  have hleft : handler host t.currInstr.name t = .ok (e, t') := by
    unfold dispatch dispatchWith at h
    split_ifs at h
    exact h
  obtain rfl := (handler_lands hleft).2 (by simp [htarget])
  have hfinish : finishAs shift host t' .NormalExecutionReturn = .ok t' := by
    unfold finishAs
    split_ifs <;> rfl
  refine hstays.transfer (.next { t' with pc := t'.pc + 4 }) ⟨f, t, .NormalExecutionReturn, t'⟩ a ?_
    htarget
  simp only [roundNoting, hhead, ok_bind, hcall, h, hfinish, pure_eq_ok]

/-- **One round** from a multiple of four. -/
lemma fetchesAligned_round_iff (hpc : IsWordAddr s.pc) :
    FetchesAligned shift host s
        ∧ (∀ s' call, roundNoting shift host s = .ok (.next s', call) → IsWordAddr s'.pc)
      ↔ StaysAligned shift host s := by
  constructor
  · rintro ⟨hfetches, hnext⟩
    exact hfetches.stays hnext
  · intro hstays
    refine ⟨⟨fun f => hstays.fetch hpc, fun f t e t' a hhead hcall h htarget hmis => ?_⟩,
      fun s' call => hstays.next hpc⟩
    exact absurd (hstays.transfers hhead hcall h htarget) hmis

/-! ## Runs -/

/-- The round that comes next begins at a multiple of four. -/
def HeadAligned (r : Turn × List Call) : Prop := ∀ s, r.1 = .next s → IsWordAddr s.pc

/-- A round that the run comes to, in whatever state. -/
def AtRound (P : VEmu → Prop) (r : Turn × List Call) (i : Event) : Prop :=
  ∀ s, i = .round → r.1 = .next s → P s

/-- **One event** of a run. -/
lemma headAligned_step_iff {r : Turn × List Call} {i : Event} (hr : HeadAligned r) :
    AtRound (FetchesAligned shift host) r i
        ∧ (∀ r', stepNoting shift host r i = .ok r' → HeadAligned r')
      ↔ AtRound (StaysAligned shift host) r i := by
  obtain ⟨turn, calls⟩ := r
  cases turn with
  | returned code =>
      refine iff_of_true ⟨fun s _ hs => ?_, fun r' h => ?_⟩ fun s _ hs => ?_
      · cases hs
      · obtain rfl := Except.ok.inj h
        exact hr
      · cases hs
  | next s =>
      cases i with
      | receive c =>
          refine iff_of_true ⟨fun s hi => ?_, fun r' h => ?_⟩ fun s hi => ?_
          · cases hi
          · obtain rfl := Except.ok.inj h
            obtain ⟨devices, -, heq⟩ := received_frame s c
            rintro s' hs'
            obtain rfl := Turn.next.inj hs'
            rw [heq]
            exact hr s rfl
          · cases hi
      | round =>
          have hround := @fetchesAligned_round_iff shift host s (hr s rfl)
          constructor
          · rintro ⟨hfetches, hnext⟩ s' - hs'
            obtain rfl := Turn.next.inj hs'
            refine hround.mp ⟨hfetches s rfl rfl, fun s' call h => ?_⟩
            have hstep : stepNoting shift host (.next s, calls) .round
                = .ok (.next s', call.toList ++ calls) := by
              simp only [stepNoting, h, ok_bind]
              rfl
            exact hnext _ hstep s' rfl
          · intro hstays
            obtain ⟨hfetches, hnext⟩ := hround.mpr (hstays s rfl rfl)
            refine ⟨fun s' _ hs' => Turn.next.inj hs' ▸ hfetches, fun r' h => ?_⟩
            obtain ⟨⟨turn, call⟩, hmade, h⟩ := bind_eq_ok_iff.mp h
            obtain rfl := Except.ok.inj h
            rintro s' hs'
            obtain rfl : turn = .next s' := hs'
            exact hnext s' call hmade

/-- **A run** that starts at a multiple of four stays at them, and reports what should go elsewhere,
exactly if it is never told to go elsewhere. -/
theorem fetchesAligned_iff (shift : U64 → Bool) (host : Host) (s : VEmu) (hpc : IsWordAddr s.pc)
    (ops : List Event) :
    AllStates (stepNoting shift host) HeadAligned (.next s, []) ops
        ∧ AllTries (stepNoting shift host) (AtRound (FetchesAligned shift host)) (.next s, []) ops
      ↔ AllTries (stepNoting shift host) (AtRound (StaysAligned shift host)) (.next s, []) ops := by
  have hstart : HeadAligned (.next s, []) := by
    rintro s' hs'
    obtain rfl := Turn.next.inj hs'
    exact hpc
  exact allStates_and_allTries_iff (fun _ _ _ (_ : True) _ => trivial)
    (fun _ _ _ hr => headAligned_step_iff hr) ops trivial hstart

/-! ## Two jumps -/

/-- `jalr x0, 0(x2)`. -/
def jalrWord : U32 := 0x00010067

/-- What a round has to show: where the jump goes, what it reports, and where the next round
begins. -/
def shownJump (r : Turn × Option Call) : Option (Option U64 × ReturnException) × Option U64 :=
  (r.2.map fun c => (c.called.target, c.report), r.1.state.map (·.pc))

theorem fetchesAligned_sixteen :
    AllStates (stepNoting (fun _ => false) (.bare .fuzz)) HeadAligned
        (.next (onePage jalrWord 16), []) [.round]
      ∧ AllTries (stepNoting (fun _ => false) (.bare .fuzz))
        (AtRound (FetchesAligned (fun _ => false) (.bare .fuzz))) (.next (onePage jalrWord 16), [])
        [.round] := by
  refine (fetchesAligned_iff _ _ _ (by decide) [.round]).mpr ⟨?_, fun _ _ => trivial⟩
  rintro s - hs
  obtain rfl := Turn.next.inj hs
  have hview : (roundNoting (fun _ => false) (.bare .fuzz) (onePage jalrWord 16) >>= fun r =>
      .ok (shownJump r)) = .ok (some (some 16, .NormalExecutionReturn), some 16) := by
    decide +kernel
  obtain ⟨⟨turn, call⟩, hround, hview⟩ := bind_eq_ok_iff.mp hview
  refine ⟨fun _ _ _ _ hb => absurd rfl hb, fun turn' c a h htarget => ?_,
    fun _ _ _ hb => absurd rfl hb, fun _ _ _ _ _ hb => absurd rfl hb⟩
  rw [hround] at h
  obtain ⟨-, rfl⟩ := Prod.mk.inj (Except.ok.inj h)
  have hshown := (Prod.mk.inj (Except.ok.inj hview)).1
  simp only [Option.map_some, Option.some.injEq, Prod.mk.injEq] at hshown
  rw [hshown.1] at htarget
  obtain rfl := Option.some.inj htarget
  decide

/-- A jump to two goes there, and the next instruction is fetched at two. -/
theorem not_fetchesAligned_two :
    ¬ AllTries (stepNoting (fun _ => false) (.bare .fuzz))
        (AtRound (FetchesAligned (fun _ => false) (.bare .fuzz))) (.next (onePage jalrWord 2), [])
        [.round, .round] := by
  rintro ⟨-, htries⟩
  have hview : (stepNoting (fun _ => false) (.bare .fuzz) (.next (onePage jalrWord 2), []) .round
      >>= fun r => .ok (r.1.state.map fun s => (s.pc, s.hasExited))) = .ok (some (2, false)) := by
    decide +kernel
  obtain ⟨⟨turn, calls⟩, hround, hview⟩ := bind_eq_ok_iff.mp hview
  obtain ⟨s, hs, hpc⟩ := Option.map_eq_some_iff.mp (Except.ok.inj hview)
  obtain ⟨hfetches, -⟩ := htries _ hround
  cases turn with
  | returned code => cases hs
  | next s' =>
      obtain rfl := Option.some.inj hs
      obtain ⟨hpc, hexit⟩ := Prod.mk.inj hpc
      have hhead : headAs (fun _ => false) (.bare .fuzz) s' = .ok (.next s') := by
        rw [headAs, if_neg (by simp [hexit])]
        rfl
      have hword := (hfetches s' rfl rfl).fetch s' hhead
      rw [hpc] at hword
      exact absurd hword (by decide)

end VEmu

end Vemu
