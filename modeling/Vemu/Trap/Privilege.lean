import Vemu.Trap.Control

/-!
# What raises the privilege

Instructions are executed whatever the mode: there is no check of the privilege of a CSR or of a
trap return.  So besides a trap and an interrupt there is one more way up: in user mode, `SRET`
with the saved mode set, or `MRET` with the supervisor's number in the saved mode, which the CSR
instructions can write there before.  **`privilege_rises_iff`** says that this is the only one,
that it leads to the supervisor and not to the machine, and that no run without it leaves user
mode by itself.
-/

namespace Vemu

open Fallible

namespace VEmu

namespace Point

variable {shift : U64 → Bool} {host : Host} {p p' : Point} {n : ℕ}

/-- The mode of the emulator, where the loop still runs. -/
def mode : Point → Option Mode
  | head s => some s.mode
  | fetch s => some s.mode
  | decode s _ _ _ => some s.mode
  | tail s => some s.mode
  | done _ => none

/-- The step executes a trap return whose saved mode is the supervisor. -/
def ReturnsUp : Point → Prop
  | decode s _ w _ => ∃ ins, (s.decoder.decode w).1 = .ok ins
      ∧ (ins.name = .SRET ∧ s.csrs.bit sstatus 8 = true
        ∨ ins.name = .MRET ∧ (s.csrs.loadCsr mstatus >>> 11) &&& 0b11 = 1)
  | _ => False

/-- None of the first `n` steps hands control to a handler. -/
def Calm (shift : U64 → Bool) (host : Host) (n : ℕ) (p : Point) : Prop :=
  ∀ k < n, ∀ q a, run shift host k p = .ok q → ¬ HandsOver shift host q a

lemma Calm.first (h : Calm shift host (n + 1) p) (a : U64) : ¬ HandsOver shift host p a :=
  h 0 (by omega) p a rfl

lemma Calm.rest (h : Calm shift host (n + 1) p) (hstep : step shift host p = .ok p') :
    Calm shift host n p' := by
  intro k hk q a hrun
  refine h (k + 1) (by omega) q a ?_
  rw [run, hstep]
  exact hrun

/-! ## One step -/

/-- What a step does to the mode: nothing leads to the machine, and user mode is left by a return
to the supervisor only. -/
structure ModeStep (p p' : Point) : Prop where
  machine : p'.mode = some .Machine → p.mode = some .Machine
  user : p.mode = some .User → p'.mode = some .User ∧ ¬ p.ReturnsUp
    ∨ p'.mode = some .Supervisor ∧ p.ReturnsUp ∨ p'.mode = none

lemma ModeStep.of_same (hmode : p'.mode = p.mode) (hup : ¬ p.ReturnsUp) : ModeStep p p' where
  machine := fun h => hmode ▸ h
  user := fun h => Or.inl ⟨hmode.trans h, hup⟩

lemma ModeStep.to_done {code : U32} : ModeStep p (done code) where
  machine := nofun
  user := fun _ => Or.inr (Or.inr rfl)

/-- `MRET` never returns to the machine. -/
lemma mretMode_eq {mb : U64} {m : Mode} (h : mretMode (mb &&& 0b11) = .ok m) :
    m = .User ∧ mb &&& 0b11 ≠ 1 ∨ m = .Supervisor ∧ mb &&& 0b11 = 1 := by
  unfold mretMode at h
  split_ifs at h with h0 h1 h2
  · exact Or.inl ⟨(Except.ok.inj h).symm, by rw [h0]; decide⟩
  · exact Or.inr ⟨(Except.ok.inj h).symm, h1⟩
  · -- two bits never make the number of the source's third test
    have hlt : (mb &&& 0b11).toNat ≤ 0b11 := by
      rw [BitVec.toNat_and]
      exact Nat.and_le_right
    rw [h2] at hlt
    exact absurd hlt (by decide)

lemma returnsUp_decode_iff {s : VEmu} {addr : U64} {w : U32} {exp : ReturnException}
    {ins : Instruction} (hins : (s.decoder.decode w).1 = .ok ins) :
    (decode s addr w exp).ReturnsUp
      ↔ ins.name = .SRET ∧ s.csrs.bit sstatus 8 = true
        ∨ ins.name = .MRET ∧ (s.csrs.loadCsr mstatus >>> 11) &&& 0b11 = 1 := by
  refine ⟨?_, fun h => ⟨ins, hins, h⟩⟩
  rintro ⟨ins', hins', h⟩
  obtain rfl := Except.ok.inj (hins'.symm.trans hins)
  exact h

lemma modeStep_decode (hb : host.build ≠ .fuzz) {s : VEmu} {addr : U64} {w : U32}
    {exp : ReturnException} (hcalm : ∀ a, ¬ HandsOver shift host (decode s addr w exp) a)
    (h : step shift host (decode s addr w exp) = .ok p') : ModeStep (decode s addr w exp) p' := by
  obtain ⟨s₁, e, s₂, t, hdecode, hexec, hafter, rfl⟩ := step_decode_cases h
  rcases afterwardsAs_cases hafter with ⟨rfl, rfl⟩ | ⟨he, hfatal, -⟩
  swap
  · exact (hcalm _ (.execute hdecode hexec he hfatal)).elim
  obtain ⟨ins, hins, rfl⟩ := decodeInto_frame hdecode
  have hup := @returnsUp_decode_iff s addr w exp ins hins
  unfold dispatch dispatchWith at hexec
  split_ifs at hexec
  by_cases hmret : ins.name = .MRET
  · rw [hmret] at hexec hup
    change MRET _ = _ at hexec
    rw [MRET, bind_eq_ok_iff] at hexec
    obtain ⟨m, hm, hexec⟩ := hexec
    obtain ⟨-, rfl⟩ := Prod.mk.inj (Except.ok.inj hexec)
    rcases mretMode_eq hm with ⟨rfl, hmpp⟩ | ⟨rfl, hmpp⟩
    · exact ⟨by simp [mode], fun _ => Or.inl ⟨rfl, by rw [hup]; simpa using hmpp⟩⟩
    · exact ⟨by simp [mode], fun _ => Or.inr (Or.inl ⟨rfl, hup.mpr (Or.inr ⟨rfl, hmpp⟩)⟩)⟩
  · by_cases hsret : ins.name = .SRET
    · rw [hsret] at hexec hup
      obtain ⟨-, rfl⟩ := Prod.mk.inj (Except.ok.inj hexec)
      cases hspp : s.csrs.bit sstatus 8 with
      | true =>
          refine ⟨?_, fun _ => Or.inr (Or.inl ⟨?_, hup.mpr (Or.inl ⟨rfl, hspp⟩)⟩)⟩
          · simp [mode]
          · simp [mode]
      | false =>
          refine ⟨?_, fun _ => Or.inl ⟨?_, ?_⟩⟩
          · simp [mode]
          · simp [mode]
          · rw [hup]
            simp [hspp]
    · have hmode := handler_mode hb hmret hsret hexec
      refine .of_same (congrArg some hmode) ?_
      rw [hup]
      simp [hmret, hsret]

lemma modeStep (hb : host.build ≠ .fuzz) (hcalm : ∀ a, ¬ HandsOver shift host p a)
    (h : step shift host p = .ok p') : ModeStep p p' := by
  cases p with
  | head s =>
      rcases step_head_cases h with ⟨code, rfl⟩ | ⟨i, s₁, t, hexit, hcheck, ht, -, rfl⟩
      · exact .to_done
      · rcases ht with ⟨-, rfl⟩ | ⟨hi, -⟩
        · obtain ⟨csrs, devices, -, rfl⟩ := checkPendingInterrupt_frame hcheck
          exact .of_same rfl id
        · exact (hcalm _ (.interrupt hexit hcheck hi)).elim
  | fetch s =>
      obtain ⟨w, e, t, hfetch, hafter, rfl⟩ := step_fetch_cases h
      rcases afterwardsAs_cases hafter with ⟨-, rfl⟩ | ⟨he, hfatal, -⟩
      · exact .of_same rfl id
      · exact (hcalm _ (.fetch hfetch he hfatal)).elim
  | decode s addr w exp => exact modeStep_decode hb hcalm h
  | tail s =>
      obtain rfl := Except.ok.inj h
      exact .of_same rfl id
  | done code =>
      obtain rfl := Except.ok.inj h
      exact .to_done

/-! ## Runs -/

/-- A run that calls no handler comes to machine mode only from there. -/
lemma run_machine (hb : host.build ≠ .fuzz) : ∀ {n : ℕ} {p p' : Point}, Calm shift host n p →
    run shift host n p = .ok p' → p'.mode = some .Machine → p.mode = some .Machine
  | 0, p, p', _, h, hmode => by
      obtain rfl := Except.ok.inj h
      exact hmode
  | n + 1, p, p', hcalm, h, hmode => by
      obtain ⟨p₁, hstep, h⟩ := bind_eq_ok_iff.mp h
      exact (modeStep hb hcalm.first hstep).machine (run_machine hb (hcalm.rest hstep) h hmode)

lemma mode_of_run_done : ∀ {n : ℕ} {p p' : Point}, p.mode = none →
    run shift host n p = .ok p' → p'.mode = none
  | 0, p, p', hmode, h => by
      obtain rfl := Except.ok.inj h
      exact hmode
  | n + 1, p, p', hmode, h => by
      obtain ⟨p₁, hstep, h⟩ := bind_eq_ok_iff.mp h
      cases p with
      | done code =>
          obtain rfl := Except.ok.inj hstep
          exact mode_of_run_done rfl h
      | head s | fetch s | tail s => cases hmode
      | decode s addr w exp => cases hmode

/-- A run that calls no handler and has no return to the supervisor does not leave user mode. -/
lemma run_user (hb : host.build ≠ .fuzz) : ∀ {n : ℕ} {p p' : Point}, Calm shift host n p →
    (∀ k < n, ∀ q, run shift host k p = .ok q → ¬ q.ReturnsUp) → p.mode = some .User →
    run shift host n p = .ok p' → p'.mode = some .User ∨ p'.mode = none
  | 0, p, p', _, _, hmode, h => by
      obtain rfl := Except.ok.inj h
      exact Or.inl hmode
  | n + 1, p, p', hcalm, hup, hmode, h => by
      obtain ⟨p₁, hstep, h⟩ := bind_eq_ok_iff.mp h
      rcases (modeStep hb hcalm.first hstep).user hmode with ⟨hstay, -⟩ | ⟨-, hrise⟩ | hdone
      · refine run_user hb (hcalm.rest hstep) (fun k hk q hq => ?_) hstay h
        refine hup (k + 1) (by omega) q ?_
        rw [run, hstep]
        exact hq
      · exact absurd hrise (hup 0 (by omega) p rfl)
      · exact Or.inr (mode_of_run_done hdone h)

/-- **A round** that starts in user mode and calls no handler leaves it exactly if its instruction
is a return to the supervisor. -/
lemma round_user_iff (hb : host.build ≠ .fuzz) {s s' : VEmu} (hcalm : Calm shift host 4 (head s))
    (h : run shift host 4 (head s) = .ok (head s')) (hmode : s.mode = .User) :
    s'.mode ≠ .User ↔ ∃ q, run shift host 2 (head s) = .ok q ∧ q.ReturnsUp := by
  obtain ⟨p₁, h₁, h⟩ := bind_eq_ok_iff.mp h
  rcases step_head_cases h₁ with ⟨code, rfl⟩ | ⟨-, -, t₁, -, -, -, -, rfl⟩
  · cases mode_of_run_done rfl h
  · have hcalm₁ := hcalm.rest h₁
    obtain ⟨p₂, h₂, h⟩ := bind_eq_ok_iff.mp h
    obtain ⟨w, exp, t₂, -, -, rfl⟩ := step_fetch_cases h₂
    have hcalm₂ := hcalm₁.rest h₂
    obtain ⟨p₃, h₃, h⟩ := bind_eq_ok_iff.mp h
    obtain ⟨-, -, -, t₃, -, -, -, rfl⟩ := step_decode_cases h₃
    obtain ⟨p₄, h₄, h⟩ := bind_eq_ok_iff.mp h
    obtain rfl := Except.ok.inj h
    obtain rfl : { t₃ with pc := t₃.pc + 4 } = s' := Point.head.inj (Except.ok.inj h₄)
    have hmode₁ : (fetch t₁).mode = some .User := by
      rcases (modeStep hb hcalm.first h₁).user (congrArg some hmode) with h | h | h
      · exact h.1
      · exact h.2.elim
      · cases h
    have hmode₂ : (decode t₂ t₁.pc w exp).mode = some .User := by
      rcases (modeStep hb hcalm₁.first h₂).user hmode₁ with h | h | h
      · exact h.1
      · exact h.2.elim
      · cases h
    have hrun : run shift host 2 (head s) = .ok (decode t₂ t₁.pc w exp) := by
      rw [run, h₁, ok_bind, run, h₂]
      rfl
    rw [hrun]
    rcases (modeStep hb hcalm₂.first h₃).user hmode₂ with ⟨hstay, hup⟩ | ⟨hrise, hup⟩ | hdone
    · refine iff_of_false (fun h => h (Option.some.inj hstay)) ?_
      rintro ⟨q, hq, hq'⟩
      obtain rfl := Except.ok.inj hq
      exact hup hq'
    · refine iff_of_true ?_ ⟨_, rfl, hup⟩
      have hs : t₃.mode = .Supervisor := Option.some.inj hrise
      show t₃.mode ≠ .User
      rw [hs]
      decide
    · cases hdone

/-- **What raises the privilege**: traps and interrupts, and in user mode a return to the
supervisor.  That is the only way by which a round that calls no handler leaves user mode; no such
round leads to machine mode; and a run of them without such a return stays in user mode. -/
theorem privilege_rises_iff (hb : host.build ≠ .fuzz) (shift : U64 → Bool) (s₀ : VEmu) :
    (∀ n s s', run shift host n (head s₀) = .ok (head s) →
      run shift host 4 (head s) = .ok (head s') → Calm shift host 4 (head s) →
        (s.mode = .User →
          (s'.mode ≠ .User ↔ ∃ q, run shift host 2 (head s) = .ok q ∧ q.ReturnsUp))
        ∧ (s.mode ≠ .Machine → s'.mode ≠ .Machine))
      ∧ ∀ n p, run shift host n (head s₀) = .ok p → Calm shift host n (head s₀) →
          s₀.mode = .User →
          (∀ k < n, ∀ q, run shift host k (head s₀) = .ok q → ¬ q.ReturnsUp) →
          p.mode = some .User ∨ p.mode = none := by
  constructor
  · intro n s s' _ hround hcalm
    refine ⟨round_user_iff hb hcalm hround, fun hmode hmode' => hmode ?_⟩
    exact Option.some.inj (run_machine hb hcalm hround (congrArg some hmode'))
  · intro n p hrun hcalm hmode hup
    exact run_user hb hcalm hup (congrArg some hmode) hrun

/-! ## A user that becomes the supervisor -/

/-- A round in which nothing is raised. -/
lemma calm_round {s s₁ s₂ s₃ : VEmu} {w : U32} (hexit : s.hasExited = false)
    (htest : host.build ≠ .test) (hcheck : s.checkPendingInterrupt = .ok (.NoInterrupt, s₁))
    (hfetch : s₁.fetch host = .ok ((w, .NormalExecutionReturn), s₁))
    (hdecode : s₁.decodeInto w = .ok s₂)
    (hexec : dispatch host s₂.currInstr.name s₂ = .ok (.NormalExecutionReturn, s₃)) :
    run shift host 4 (head s) = .ok (head { s₃ with pc := s₃.pc + 4 })
      ∧ Calm shift host 4 (head s) := by
  have h₁ : step shift host (head s) = .ok (fetch s₁) := by
    rw [step, if_neg (by simp [hexit]), hcheck]
    exact if_neg fun h => htest h.1
  have h₂ : step shift host (fetch s₁) = .ok (decode s₁ s₁.pc w .NormalExecutionReturn) := by
    rw [step, hfetch]
    rfl
  have h₃ : step shift host (decode s₁ s₁.pc w .NormalExecutionReturn) = .ok (tail s₃) := by
    rw [step, hdecode, ok_bind, hexec]
    rfl
  refine ⟨by rw [run, h₁, ok_bind, run, h₂, ok_bind, run, h₃]; rfl, ?_⟩
  intro k hk q a hrun hover
  interval_cases k
  · obtain rfl := Except.ok.inj hrun
    cases hover with
    | interrupt _ hcheck' hi =>
        exact hi (Prod.mk.inj (Except.ok.inj (hcheck'.symm.trans hcheck))).1
  · rw [run, h₁] at hrun
    obtain rfl : fetch s₁ = q := Except.ok.inj hrun
    cases hover with
    | fetch hfetch' he =>
        exact he (Prod.mk.inj (Prod.mk.inj (Except.ok.inj (hfetch'.symm.trans hfetch))).1).2
  · rw [run, h₁, ok_bind, run, h₂] at hrun
    obtain rfl : decode s₁ s₁.pc w .NormalExecutionReturn = q := Except.ok.inj hrun
    cases hover with
    | execute hdecode' hexec' he =>
        obtain rfl := Except.ok.inj (hdecode'.symm.trans hdecode)
        exact he (Prod.mk.inj (Except.ok.inj (hexec'.symm.trans hexec))).1
  · rw [run, h₁, ok_bind, run, h₂, ok_bind, run, h₃] at hrun
    obtain rfl : tail s₃ = q := Except.ok.inj hrun
    cases hover

/-- Whether a round goes through and nothing is raised in it, and the state after it. -/
def quietRound (host : Host) (s : VEmu) :
    Except Fault (Bool × VEmu) := do
  let (i, s₁) ← s.checkPendingInterrupt
  let ((w, exp), s₂) ← s₁.fetch host
  let s₃ ← s₂.decodeInto w
  let (e, s₄) ← dispatch host s₃.currInstr.name s₃
  return (!s.hasExited && i = .NoInterrupt && exp = .NormalExecutionReturn
    && e = .NormalExecutionReturn, { s₄ with pc := s₄.pc + 4 })

lemma calm_of_quietRound {s s' : VEmu} (htest : host.build ≠ .test)
    (h : quietRound host s = .ok (true, s')) :
    run shift host 4 (head s) = .ok (head s') ∧ Calm shift host 4 (head s) := by
  rw [quietRound, bind_eq_ok_iff] at h
  obtain ⟨⟨i, s₁⟩, hcheck, h⟩ := h
  rw [bind_eq_ok_iff] at h
  obtain ⟨⟨⟨w, exp⟩, s₂⟩, hfetch, h⟩ := h
  obtain rfl := fetch_frame hfetch
  rw [bind_eq_ok_iff] at h
  obtain ⟨s₃, hdecode, h⟩ := h
  rw [bind_eq_ok_iff] at h
  obtain ⟨⟨e, s₄⟩, hexec, h⟩ := h
  simp only [pure_eq_ok, Except.ok.injEq, Prod.mk.injEq, Bool.and_eq_true, Bool.not_eq_true',
    decide_eq_true_eq] at h
  obtain ⟨⟨⟨⟨hexit, rfl⟩, rfl⟩, rfl⟩, rfl⟩ := h
  exact calm_round hexit htest hcheck hfetch hdecode hexec

/-- A hart in user mode about to execute `csrrw x0, sstatus, x2` and `sret`, with the saved mode's
bit in `x2`. -/
def climbingHart : VEmu :=
  { userHart 0 0 with
    bus :=
      { devices := some ⟨.new, .new, .new false⟩, ramSize := 4096
        mmu := (onePageMemory 0x10011073).written 4 (MMU.split 4 0x10200073) }
    iregs := RegFile.new.storeReg 2 0x100 }

/-- The first of them leaves the hart in user mode, and is no return. -/
theorem privilege_rises_climbingHart :
    ∃ s₁, run (fun _ => false) (.bare .emu) 4 (head climbingHart) = .ok (head s₁)
      ∧ s₁.mode = .User
      ∧ ¬ ∃ q, run (fun _ => false) (.bare .emu) 2 (head climbingHart) = .ok q ∧ q.ReturnsUp := by
  have hview : (quietRound (.bare .emu) climbingHart >>= fun r₁ => .ok (r₁.1, r₁.2.mode))
      = .ok (true, .User) := by
    decide +kernel
  rw [bind_eq_ok_iff] at hview
  obtain ⟨⟨r₁, s₁⟩, h₁, hview⟩ := hview
  simp only [Except.ok.injEq, Prod.mk.injEq] at hview
  obtain ⟨rfl, hmode₁⟩ := hview
  obtain ⟨hrun₁, hcalm₁⟩ := calm_of_quietRound (by decide) h₁
  have huser := ((privilege_rises_iff (by decide) (fun _ => false) climbingHart).1 0 _ _ rfl hrun₁
    hcalm₁).1 rfl
  exact ⟨s₁, hrun₁, hmode₁, fun h => huser.mpr h hmode₁⟩

/-- Two instructions make a user the supervisor, without a trap or an interrupt. -/
theorem supervisor_by_sret :
    ∃ s₁ s₂, run (fun _ => false) (.bare .emu) 4 (head climbingHart) = .ok (head s₁)
      ∧ run (fun _ => false) (.bare .emu) 4 (head s₁) = .ok (head s₂)
      ∧ Calm (fun _ => false) (.bare .emu) 4 (head climbingHart)
      ∧ Calm (fun _ => false) (.bare .emu) 4 (head s₁)
      ∧ climbingHart.mode = .User ∧ s₁.mode = .User ∧ s₂.mode = .Supervisor := by
  have hview : (quietRound (.bare .emu) climbingHart >>= fun r₁ =>
      quietRound (.bare .emu) r₁.2 >>= fun r₂ => .ok (r₁.1, r₁.2.mode, r₂.1, r₂.2.mode))
      = .ok (true, .User, true, .Supervisor) := by
    decide +kernel
  rw [bind_eq_ok_iff] at hview
  obtain ⟨⟨r₁, s₁⟩, h₁, hview⟩ := hview
  rw [bind_eq_ok_iff] at hview
  obtain ⟨⟨r₂, s₂⟩, h₂, hview⟩ := hview
  simp only [Except.ok.injEq, Prod.mk.injEq] at hview
  obtain ⟨rfl, hmode₁, rfl, hmode₂⟩ := hview
  obtain ⟨hrun₁, hcalm₁⟩ := calm_of_quietRound (by decide) h₁
  obtain ⟨hrun₂, hcalm₂⟩ := calm_of_quietRound (by decide) h₂
  exact ⟨s₁, s₂, hrun₁, hrun₂, hcalm₁, hcalm₂, rfl, hmode₁, hmode₂⟩

end Point

end VEmu

end Vemu
