import Vemu.Trap.Entry
import Vemu.Trap.Frame

/-!
# Where control goes after a trap

The loop of `run` as a machine of small steps, which stops at the four places of a round: its
head, the fetch, the decoder, and its tail.  A trap and an interrupt both leave four less than
the address of the handler in the program counter, for the tail to add.  That is right for a trap
out of an executed instruction.  An interrupt is taken before the fetch of its round, which then
fetches the word before the handler; and after a trap out of the fetch the word of the failed
fetch is decoded all the same.  So the next word decoded is the handler's exactly if there is no
interrupt, no fetch traps, and the handlers of the other traps can be fetched
(**`transfers_iff`**).

The delegation register is shifted by the cause, and a shift by the width or more is undefined.
The machine takes what such a shift gives as a parameter, so that the theorem holds whatever it
is; where no cause is that large, its steps are those of `iterate` (`run_of_iterate`).
-/

namespace Vemu

open Fallible

namespace VEmu

/-! ## Traps, whatever an undefined shift gives -/

section Entry

variable (shift : U64 → Bool)

def delegatedAs (s : VEmu) (cause : U64) : Bool :=
  if cause.toNat < 64 then s.csrs.bit medeleg cause.toNat else shift cause

/-- The handler's register of the level that takes the trap. -/
def tvecAs (s : VEmu) (cause : U64) : U64 :=
  if s.mode ≠ .Machine ∧ delegatedAs shift s cause then s.csrs.loadCsr stvec
  else s.csrs.loadCsr mtvec

def enterAs (s : VEmu) (cause handler : U64) : VEmu :=
  if s.mode ≠ .Machine ∧ delegatedAs shift s cause then s.enterSupervisor cause handler
  else s.enterMachine cause handler

def exceptionHandler (s : VEmu) (e : ReturnException) : U64 :=
  tvecAs shift s (e.code.setWidth 64) &&& allBut32 0

def trapAs (s : VEmu) (e : ReturnException) : VEmu :=
  enterAs shift s (e.code.setWidth 64) (exceptionHandler shift s e)

def interruptCause (i : Interrupt) : U64 := (1 <<< 63) ||| i.code

/-- The handler's address, with the vectored offset. -/
def interruptHandler (s : VEmu) (i : Interrupt) : U64 :=
  vectored (tvecAs shift s (interruptCause i)) (interruptCause i)

def takeInterruptAs (s : VEmu) (i : Interrupt) : VEmu :=
  enterAs shift s (interruptCause i) (interruptHandler shift s i)

def afterwardsAs (s : VEmu) (e : ReturnException) : Except Fault VEmu :=
  if e = .NormalExecutionReturn then .ok s
  else if isFatal e then .error .exitFailure else .ok (trapAs shift s e)

variable {shift} {host : Host} {build : Build} {s s' : VEmu} {e : ReturnException}

/-- Entering a handler changes the control registers, the mode and the program counter. -/
lemma enterAs_frame (s : VEmu) (cause handler : U64) :
    ∃ csrs mode, enterAs shift s cause handler
      = { s with csrs := csrs, mode := mode, pc := handler - 4 } := by
  unfold enterAs
  split_ifs
  · exact ⟨_, _, rfl⟩
  · exact ⟨_, _, rfl⟩

lemma pc_enterAs (s : VEmu) (cause handler : U64) :
    (enterAs shift s cause handler).pc = handler - 4 := by
  obtain ⟨csrs, mode, heq⟩ := @enterAs_frame shift s cause handler
  rw [heq]

/-- A handler is entered with the interrupts of its level turned off. -/
lemma interruptsOff_enterAs (s : VEmu) (cause handler pc : U64) :
    ({ enterAs shift s cause handler with pc := pc }).interruptsOff = true := by
  unfold enterAs
  split_ifs
  · have hbit : (supervisorEntry s.csrs s.mode s.pc cause).bit sstatus sstatusSiePos = false := by
      rw [Csrs.bit_of_ne (by decide), supervisorEntry_eq, Csrs.reg_set_self,
        getLsbD_supervisorStatus]
      simp [sstatusSiePos, sstatusSppPos, sstatusSpiePos]
    simp [interruptsOff, enterSupervisor, hbit]
  · have hbit : (machineEntry s.csrs s.mode s.pc cause).bit mstatus mstatusMiePos = false := by
      rw [Csrs.bit_of_ne (by decide), machineEntry_eq, Csrs.reg_set_self, getLsbD_machineStatus]
      simp [mstatusMiePos, mstatusMpiePos]
    simp [interruptsOff, enterMachine, hbit]

/-- **Where the shift is defined**, a trap is the trap of the source. -/
lemma trap_eq_trapAs (hb : build ≠ .fuzz) (h : s.trap build e = .ok s') :
    s' = trapAs shift s e := by
  simp only [trap, if_neg hb] at h
  obtain ⟨doDeleg, hdeleg, h⟩ := bind_eq_ok_iff.mp h
  have hsame : delegatedAs shift s (e.code.setWidth 64) = doDeleg := by
    unfold delegated at hdeleg
    split_ifs at hdeleg with hlt
    rw [delegatedAs, if_pos hlt]
    exact Except.ok.inj hdeleg
  subst hsame
  unfold trapAs enterAs exceptionHandler tvecAs
  split_ifs at h ⊢
  · exact (Except.ok.inj h).symm
  · exact (Except.ok.inj h).symm

lemma afterwardsAs_of_afterwards (hb : build ≠ .fuzz) (h : s.afterwards build e = .ok s') :
    afterwardsAs shift s e = .ok s' := by
  unfold afterwards at h
  unfold afterwardsAs
  split_ifs at h ⊢ with he hfatal
  · exact h
  · obtain ⟨s₁, -, h⟩ := bind_eq_ok_iff.mp h
    cases h
  · obtain ⟨s₁, h₁, h⟩ := bind_eq_ok_iff.mp h
    obtain rfl := Except.ok.inj h
    rw [trap_eq_trapAs hb h₁]

/-- What is not fatal is left alone or goes to its handler. -/
lemma afterwardsAs_cases (h : afterwardsAs shift s e = .ok s') :
    e = .NormalExecutionReturn ∧ s' = s
      ∨ e ≠ .NormalExecutionReturn ∧ isFatal e = false ∧ s' = trapAs shift s e := by
  unfold afterwardsAs at h
  split_ifs at h with he hfatal
  · exact Or.inl ⟨he, (Except.ok.inj h).symm⟩
  · exact Or.inr ⟨he, by simpa using hfatal, (Except.ok.inj h).symm⟩

lemma afterwardsAs_frame (h : afterwardsAs shift s e = .ok s') :
    ∃ csrs mode pc, s' = { s with csrs := csrs, mode := mode, pc := pc } := by
  rcases afterwardsAs_cases h with ⟨-, rfl⟩ | ⟨-, -, rfl⟩
  · exact ⟨s'.csrs, s'.mode, s'.pc, rfl⟩
  · obtain ⟨csrs, mode, heq⟩ := @enterAs_frame shift s (e.code.setWidth 64) (exceptionHandler shift s e)
    exact ⟨csrs, mode, _, heq⟩

end Entry

/-! ## The loop in small steps -/

/-- A place in the loop.  At `decode` stands the word that is decoded next, with the address it
was fetched from and what the fetch reported. -/
inductive Point
  | head (s : VEmu)
  | fetch (s : VEmu)
  | decode (s : VEmu) (addr : U64) (w : U32) (exp : ReturnException)
  | tail (s : VEmu)
  | done (code : U32)

namespace Point

variable (shift : U64 → Bool) (host : Host)

/-- One step outside the fuzzing build. -/
def step : Point → Except Fault Point
  | head s => do
      if s.hasExited then return done (s.exitCode.setWidth 32)
      else
        let (i, s) ← s.checkPendingInterrupt
        let s := if i = .NoInterrupt then s else takeInterruptAs shift s i
        if host.build = .test ∧ s.testFlagDone then return done 0 else return fetch s
  | fetch s => do
      let ((w, exp), s) ← s.fetch host
      let s' ← afterwardsAs shift s exp
      return decode s' s.pc w exp
  | decode s _ w _ => do
      let s ← s.decodeInto w
      let (exp, s) ← dispatch host s.currInstr.name s
      let s ← afterwardsAs shift s exp
      return tail s
  | tail s => return head { s with pc := s.pc + 4 }
  | done code => return done code

def run : ℕ → Point → Except Fault Point
  | 0, p => .ok p
  | n + 1, p => step shift host p >>= run n

/-- Where a round ends. -/
def ofTurn : Turn → Point
  | .next s => head s
  | .returned code => done code

variable {shift host} {s : VEmu} {turn : Turn} {p p' : Point}

/-- **A round is four steps.** -/
theorem run_of_iterate (hb : host.build ≠ .fuzz) (h : s.iterate host = .ok turn) :
    run shift host 4 (head s) = .ok (ofTurn turn) := by
  rw [iterate, iterateWith] at h
  simp only [run, step]
  split_ifs at h ⊢ with hexit
  · obtain rfl := Except.ok.inj h
    rfl
  · obtain ⟨s₁, hpoll, h⟩ := bind_eq_ok_iff.mp h
    rw [poll, if_neg hb] at hpoll
    obtain ⟨⟨i, s₂⟩, hcheck, hpoll⟩ := bind_eq_ok_iff.mp hpoll
    dsimp only at hpoll
    split_ifs at hpoll with hi
    · obtain rfl := Except.ok.inj hpoll
      subst hi
      simp only [hcheck, ok_bind, if_true]
      split_ifs at h ⊢ with htest
      · obtain rfl := Except.ok.inj h
        rfl
      · obtain ⟨⟨exp, s₃⟩, hexec, h⟩ := bind_eq_ok_iff.mp h
        obtain ⟨s₄, hafter, h⟩ := bind_eq_ok_iff.mp h
        obtain rfl := Except.ok.inj h
        rw [executeWith] at hexec
        obtain ⟨⟨⟨w, exp₀⟩, s₅⟩, hfetch, hexec⟩ := bind_eq_ok_iff.mp hexec
        obtain ⟨s₆, htrap, hexec⟩ := bind_eq_ok_iff.mp hexec
        obtain ⟨s₇, hdecode, hexec⟩ := bind_eq_ok_iff.mp hexec
        rw [← dispatch] at hexec
        simp only [pure_eq_ok, ok_bind, hfetch, afterwardsAs_of_afterwards hb htrap, hdecode, hexec,
          afterwardsAs_of_afterwards hb hafter]
        rfl
    · rw [takeInterrupt_eq] at hpoll
      cases hpoll

/-! ## What one step did -/

lemma step_head_cases (h : step shift host (head s) = .ok p') :
    (∃ code, p' = done code)
      ∨ ∃ i s₁ t, s.hasExited = false ∧ s.checkPendingInterrupt = .ok (i, s₁)
        ∧ (i = .NoInterrupt ∧ t = s₁ ∨ i ≠ .NoInterrupt ∧ t = takeInterruptAs shift s₁ i)
        ∧ ¬ (host.build = .test ∧ t.testFlagDone = true) ∧ p' = fetch t := by
  rw [step] at h
  split_ifs at h with hexit
  · exact Or.inl ⟨_, (Except.ok.inj h).symm⟩
  · obtain ⟨⟨i, s₁⟩, hcheck, h⟩ := bind_eq_ok_iff.mp h
    have hexit' : s.hasExited = false := by simpa using hexit
    dsimp only at h
    split_ifs at h with hi htest htest
    · exact Or.inl ⟨_, (Except.ok.inj h).symm⟩
    · exact Or.inr ⟨i, s₁, s₁, hexit', hcheck, Or.inl ⟨hi, rfl⟩, htest, (Except.ok.inj h).symm⟩
    · exact Or.inl ⟨_, (Except.ok.inj h).symm⟩
    · exact Or.inr ⟨i, s₁, _, hexit', hcheck, Or.inr ⟨hi, rfl⟩, htest, (Except.ok.inj h).symm⟩

lemma step_fetch_cases (h : step shift host (fetch s) = .ok p') :
    ∃ w exp t, s.fetch host = .ok ((w, exp), s) ∧ afterwardsAs shift s exp = .ok t
      ∧ p' = decode t s.pc w exp := by
  rw [step, bind_eq_ok_iff] at h
  obtain ⟨⟨⟨w, exp⟩, s₁⟩, hfetch, h⟩ := h
  obtain rfl := fetch_frame hfetch
  obtain ⟨t, hafter, h⟩ := bind_eq_ok_iff.mp h
  exact ⟨w, exp, t, hfetch, hafter, (Except.ok.inj h).symm⟩

lemma step_decode_cases {addr : U64} {w : U32} {exp : ReturnException}
    (h : step shift host (decode s addr w exp) = .ok p') :
    ∃ s₁ e s₂ t, s.decodeInto w = .ok s₁ ∧ dispatch host s₁.currInstr.name s₁ = .ok (e, s₂)
      ∧ afterwardsAs shift s₂ e = .ok t ∧ p' = tail t := by
  rw [step, bind_eq_ok_iff] at h
  obtain ⟨s₁, hdecode, h⟩ := h
  rw [bind_eq_ok_iff] at h
  obtain ⟨⟨e, s₂⟩, hexec, h⟩ := h
  obtain ⟨t, hafter, h⟩ := bind_eq_ok_iff.mp h
  exact ⟨s₁, e, s₂, t, hdecode, hexec, hafter, (Except.ok.inj h).symm⟩

/-! ## Control -/

/-- The step from the place hands control to the handler at the address. -/
inductive HandsOver (shift : U64 → Bool) (host : Host) : Point → U64 → Prop
  | interrupt {s s₁ : VEmu} {i : Interrupt} (hexit : s.hasExited = false)
      (hcheck : s.checkPendingInterrupt = .ok (i, s₁)) (hi : i ≠ .NoInterrupt) :
      HandsOver shift host (head s) (interruptHandler shift s₁ i)
  | fetch {s s₁ : VEmu} {w : U32} {e : ReturnException} (hfetch : s.fetch host = .ok ((w, e), s₁))
      (he : e ≠ .NormalExecutionReturn) (hfatal : isFatal e = false) :
      HandsOver shift host (fetch s) (exceptionHandler shift s₁ e)
  | execute {s s₁ s₂ : VEmu} {addr : U64} {w : U32} {exp e : ReturnException}
      (hdecode : s.decodeInto w = .ok s₁)
      (hexec : dispatch host s₁.currInstr.name s₁ = .ok (e, s₂))
      (he : e ≠ .NormalExecutionReturn) (hfatal : isFatal e = false) :
      HandsOver shift host (decode s addr w exp) (exceptionHandler shift s₂ e)

def IsDecode : Point → Prop
  | decode _ _ _ _ => True
  | _ => False

/-- The next word that is decoded was fetched from the address, with the given report. -/
inductive NextDecode (shift : U64 → Bool) (host : Host) : Point → U64 → ReturnException → Prop
  | here (s : VEmu) (addr : U64) (w : U32) (exp : ReturnException) :
      NextDecode shift host (decode s addr w exp) addr exp
  | later {p p' : Point} {addr : U64} {exp : ReturnException} (hp : ¬ p.IsDecode)
      (hstep : step shift host p = .ok p') (hnext : NextDecode shift host p' addr exp) :
      NextDecode shift host p addr exp

/-- **Control is transferred**: wherever a step hands control to a handler, the next word that is
decoded is the one at the handler's address. -/
def Transfers (shift : U64 → Bool) (host : Host) (p : Point) : Prop :=
  ∀ handler, HandsOver shift host p handler →
    ∃ p', step shift host p = .ok p' ∧ NextDecode shift host p' handler .NormalExecutionReturn

/-- **The condition**: no interrupt is taken, the fetch raises no exception that the loop survives,
and there is a word at the handler of the exception that the instruction raises. -/
def Orderly (shift : U64 → Bool) (host : Host) : Point → Prop
  | head s => s.hasExited = false → ∀ i s₁, s.checkPendingInterrupt = .ok (i, s₁) → i = .NoInterrupt
  | fetch s => ∀ w e s₁, s.fetch host = .ok ((w, e), s₁) → e ≠ .NormalExecutionReturn →
      isFatal e = true
  | decode s _ w _ => ∀ s₁ s₂ e, s.decodeInto w = .ok s₁ →
      dispatch host s₁.currInstr.name s₁ = .ok (e, s₂) → e ≠ .NormalExecutionReturn →
      isFatal e = false →
      ∃ w' s₃, ({ s₂ with pc := exceptionHandler shift s₂ e }).fetch host
        = .ok ((w', .NormalExecutionReturn), s₃)
  | tail _ => True
  | done _ => True

/-- Past the head of a round, nothing has ended the run. -/
def Live (host : Host) : Point → Prop
  | fetch s => s.hasExited = false ∧ ¬ (host.build = .test ∧ s.testFlagDone = true)
  | decode s _ _ _ => s.hasExited = false ∧ ¬ (host.build = .test ∧ s.testFlagDone = true)
  | _ => True

lemma nextDecode_decode_iff {addr a : U64} {w : U32} {exp e : ReturnException} :
    NextDecode shift host (decode s addr w exp) a e ↔ a = addr ∧ e = exp := by
  constructor
  · intro h
    cases h with
    | here => exact ⟨rfl, rfl⟩
    | later hp => exact absurd trivial hp
  · rintro ⟨rfl, rfl⟩
    exact .here s a w e

lemma nextDecode_step_iff {a : U64} {e : ReturnException} (hp : ¬ p.IsDecode) :
    NextDecode shift host p a e
      ↔ ∃ p', step shift host p = .ok p' ∧ NextDecode shift host p' a e := by
  constructor
  · intro h
    cases h with
    | here => exact absurd trivial hp
    | later _ hstep hnext => exact ⟨_, hstep, hnext⟩
  · rintro ⟨p', hstep, hnext⟩
    exact .later hp hstep hnext

lemma not_nextDecode_done {code : U32} {a : U64} {e : ReturnException} :
    ¬ NextDecode shift host (done code) a e := by
  intro h
  generalize hp : done code = p at h
  induction h with
  | here => cases hp
  | later _ hstep _ ih =>
      subst hp
      exact ih (Except.ok.inj hstep)

/-- From the fetch on, the next word decoded is the one at the program counter. -/
lemma nextDecode_fetch_iff {a : U64} :
    NextDecode shift host (fetch s) a .NormalExecutionReturn
      ↔ a = s.pc ∧ ∃ w, s.fetch host = .ok ((w, .NormalExecutionReturn), s) := by
  have hp : ¬ (fetch s).IsDecode := id
  rw [nextDecode_step_iff hp]
  constructor
  · rintro ⟨p', hstep, hnext⟩
    obtain ⟨w, exp, t, hfetch, -, rfl⟩ := step_fetch_cases hstep
    obtain ⟨rfl, rfl⟩ := nextDecode_decode_iff.mp hnext
    exact ⟨rfl, w, hfetch⟩
  · rintro ⟨rfl, w, hfetch⟩
    refine ⟨decode s s.pc w .NormalExecutionReturn, ?_, .here ..⟩
    rw [step, hfetch]
    rfl

/-! ## One step -/

lemma transfers_head_iff : Transfers shift host (head s) ↔ Orderly shift host (head s) := by
  constructor
  · intro h hexit i s₁ hcheck
    by_contra hi
    obtain ⟨p', hstep, hnext⟩ := h _ (.interrupt hexit hcheck hi)
    simp only [step, hexit, Bool.false_eq_true, if_false, hcheck, ok_bind, if_neg hi] at hstep
    split_ifs at hstep
    · obtain rfl := Except.ok.inj hstep
      exact not_nextDecode_done hnext
    · obtain rfl := Except.ok.inj hstep
      -- the handler would be four bytes below itself
      have hpc : interruptHandler shift s₁ i = interruptHandler shift s₁ i - 4 := by
        rw [← @pc_enterAs shift s₁ (interruptCause i)]
        exact (nextDecode_fetch_iff.mp hnext).1
      bv_omega
  · rintro h handler hover
    cases hover with
    | interrupt hexit hcheck hi => exact absurd (h hexit _ _ hcheck) hi

lemma transfers_fetch_iff : Transfers shift host (fetch s) ↔ Orderly shift host (fetch s) := by
  constructor
  · intro h w e s₁ hfetch he
    by_contra hfatal
    obtain ⟨p', hstep, hnext⟩ := h _ (.fetch hfetch he (by simpa using hfatal))
    simp only [step, hfetch, ok_bind] at hstep
    obtain ⟨s₂, -, hstep⟩ := bind_eq_ok_iff.mp hstep
    obtain rfl := Except.ok.inj hstep
    -- the word of the fetch that failed is decoded
    exact he (nextDecode_decode_iff.mp hnext).2.symm
  · rintro h handler hover
    cases hover with
    | fetch hfetch he hfatal => exact absurd (h _ _ _ hfetch he) (by simp [hfatal])

/-- The fetch sees the bus and the program counter only. -/
lemma fetch_of_same {t : VEmu} {r : U32 × ReturnException} (hbus : t.bus = s.bus)
    (hpc : t.pc = s.pc) (h : s.fetch host = .ok (r, s)) : t.fetch host = .ok (r, t) := by
  unfold VEmu.fetch at h ⊢
  rw [hpc]
  split_ifs at h ⊢
  · obtain ⟨⟨⟨w, exp⟩, s₁⟩, hload, h⟩ := bind_eq_ok_iff.mp h
    obtain ⟨⟨r', bus⟩, hbusload, hload⟩ := bind_eq_ok_iff.mp hload
    obtain rfl := Bus.load_frame (by decide) hbusload
    obtain ⟨rfl, rfl⟩ := Prod.mk.inj (Except.ok.inj hload)
    obtain rfl := (Prod.mk.inj (Except.ok.inj h)).1
    have hsame : t.load s.pc 32 = .ok ((w, exp), t) := by
      rw [VEmu.load, hbus, hbusload, ok_bind, ← hbus]
      rfl
    rw [hsame]
    rfl
  · obtain ⟨r', hload, h⟩ := bind_eq_ok_iff.mp h
    obtain rfl := (Prod.mk.inj (Except.ok.inj h)).1
    rw [hbus, hload]
    rfl

/-- After a trap out of an executed instruction, the loop goes to the handler and fetches there:
the handler is entered with its interrupts turned off. -/
lemma nextDecode_trapped_iff {cause handler a : U64} (hexit : s.hasExited = false)
    (htest : ¬ (host.build = .test ∧ s.testFlagDone = true)) :
    NextDecode shift host (tail (enterAs shift s cause handler)) a .NormalExecutionReturn
      ↔ a = handler
        ∧ ∃ w, ({ s with pc := handler }).fetch host
          = .ok ((w, .NormalExecutionReturn), { s with pc := handler }) := by
  obtain ⟨csrs, mode, heq⟩ := @enterAs_frame shift s cause handler
  have hoff := @interruptsOff_enterAs shift s cause handler handler
  rw [heq] at hoff ⊢
  set t : VEmu := { s with csrs := csrs, mode := mode, pc := handler } with ht
  have htail : step shift host (tail { s with csrs := csrs, mode := mode, pc := handler - 4 })
      = .ok (head t) := by
    rw [step, ht, BitVec.sub_add_cancel]
    rfl
  have hhead : step shift host (head t) = .ok (fetch t) := by
    have hcheck : t.checkPendingInterrupt = .ok (.NoInterrupt, t) := if_pos hoff
    have htest' : ¬ (host.build = .test ∧ t.testFlagDone = true) := htest
    have hexit' : t.hasExited = false := hexit
    simp only [step, hexit', Bool.false_eq_true, if_false, hcheck, ok_bind, if_true, if_neg htest']
    rfl
  have hnottail : ¬ (tail { s with csrs := csrs, mode := mode, pc := handler - 4 }).IsDecode := id
  have hnothead : ¬ (head t).IsDecode := id
  rw [nextDecode_step_iff hnottail, htail]
  simp only [Except.ok.injEq, exists_eq_left']
  rw [nextDecode_step_iff hnothead, hhead]
  simp only [Except.ok.injEq, exists_eq_left']
  rw [nextDecode_fetch_iff]
  constructor
  · rintro ⟨rfl, w, hfetch⟩
    exact ⟨rfl, w, fetch_of_same (by rfl) (by rfl) hfetch⟩
  · rintro ⟨rfl, w, hfetch⟩
    exact ⟨rfl, w, fetch_of_same (by rfl) (by rfl) hfetch⟩

lemma transfers_decode_iff (hb : host.build ≠ .fuzz) {addr : U64} {w : U32}
    {exp : ReturnException} (hlive : Live host (decode s addr w exp)) :
    Transfers shift host (decode s addr w exp) ↔ Orderly shift host (decode s addr w exp) := by
  obtain ⟨hexit, htest⟩ := hlive
  -- what the handler of the instruction leaves behind still runs
  have hlive₂ : ∀ {s₁ s₂ e}, s.decodeInto w = .ok s₁ →
      dispatch host s₁.currInstr.name s₁ = .ok (e, s₂) → e ≠ .NormalExecutionReturn →
      s₂.hasExited = false ∧ ¬ (host.build = .test ∧ s₂.testFlagDone = true) := by
    intro s₁ s₂ e hdecode hexec he
    obtain ⟨ins, -, rfl⟩ := decodeInto_frame hdecode
    unfold dispatch dispatchWith at hexec
    split_ifs at hexec
    have hstays := handler_raises hb he hexec
    rw [hstays.hasExited, hstays.testFlagDone]
    exact ⟨hexit, htest⟩
  have hstep : ∀ {s₁ s₂ e}, s.decodeInto w = .ok s₁ →
      dispatch host s₁.currInstr.name s₁ = .ok (e, s₂) → e ≠ .NormalExecutionReturn →
      isFatal e = false → step shift host (decode s addr w exp) = .ok (tail (trapAs shift s₂ e)) := by
    intro s₁ s₂ e hdecode hexec he hfatal
    simp only [step, hdecode, ok_bind, hexec, afterwardsAs, if_neg he, hfatal, Bool.false_eq_true,
      if_false]
    rfl
  constructor
  · intro h s₁ s₂ e hdecode hexec he hfatal
    obtain ⟨p', hstep', hnext⟩ := h _ (.execute hdecode hexec he hfatal)
    rw [hstep hdecode hexec he hfatal] at hstep'
    obtain rfl := Except.ok.inj hstep'
    obtain ⟨hexit₂, htest₂⟩ := hlive₂ hdecode hexec he
    obtain ⟨-, w', hfetch⟩ := (nextDecode_trapped_iff hexit₂ htest₂).mp hnext
    exact ⟨w', _, hfetch⟩
  · rintro h handler hover
    cases hover with
    | execute hdecode hexec he hfatal =>
        obtain ⟨w', s₃, hfetch⟩ := h _ _ _ hdecode hexec he hfatal
        obtain rfl := fetch_frame hfetch
        obtain ⟨hexit₂, htest₂⟩ := hlive₂ hdecode hexec he
        exact ⟨_, hstep hdecode hexec he hfatal,
          (nextDecode_trapped_iff hexit₂ htest₂).mpr ⟨rfl, w', hfetch⟩⟩

/-- **One step** transfers control exactly if the condition holds. -/
theorem transfers_iff_orderly (hb : host.build ≠ .fuzz) (hlive : Live host p) :
    Transfers shift host p ↔ Orderly shift host p := by
  cases p with
  | head s => exact transfers_head_iff
  | fetch s => exact transfers_fetch_iff
  | decode s addr w exp => exact transfers_decode_iff hb hlive
  | tail s => exact ⟨fun _ => trivial, fun _ handler hover => nomatch hover⟩
  | done code => exact ⟨fun _ => trivial, fun _ handler hover => nomatch hover⟩

/-! ## Runs -/

lemma live_step (hlive : Live host p) (h : step shift host p = .ok p') : Live host p' := by
  cases p with
  | head s =>
      rcases step_head_cases h with ⟨code, rfl⟩ | ⟨i, s₁, t, hexit, hcheck, ht, htest, rfl⟩
      · trivial
      · obtain ⟨csrs, devices, -, rfl⟩ := checkPendingInterrupt_frame hcheck
        refine ⟨?_, htest⟩
        rcases ht with ⟨-, rfl⟩ | ⟨-, rfl⟩
        · exact hexit
        · obtain ⟨csrs', mode, heq⟩ := @enterAs_frame shift
            { s with csrs := csrs, bus := { s.bus with devices := devices } } (interruptCause i)
            (interruptHandler shift
              { s with csrs := csrs, bus := { s.bus with devices := devices } } i)
          rw [takeInterruptAs, heq]
          exact hexit
  | fetch s =>
      obtain ⟨w, exp, t, -, hafter, rfl⟩ := step_fetch_cases h
      obtain ⟨csrs, mode, pc, rfl⟩ := afterwardsAs_frame hafter
      exact hlive
  | decode s addr w exp =>
      obtain ⟨s₁, e, s₂, t, -, -, -, rfl⟩ := step_decode_cases h
      trivial
  | tail s =>
      obtain rfl := Except.ok.inj h
      trivial
  | done code =>
      obtain rfl := Except.ok.inj h
      trivial

lemma live_run : ∀ {n : ℕ} {p p' : Point}, Live host p → run shift host n p = .ok p' →
    Live host p'
  | 0, p, p', hlive, h => by
      obtain rfl := Except.ok.inj h
      exact hlive
  | n + 1, p, p', hlive, h => by
      obtain ⟨p₁, hstep, h⟩ := bind_eq_ok_iff.mp h
      exact live_run (live_step hlive hstep) h

/-- **Control goes to the handler** at every step of a run exactly if no interrupt is taken on the
way, no fetch raises an exception that the loop survives, and every handler of an exception that
an instruction raises can be fetched. -/
theorem transfers_iff (hb : host.build ≠ .fuzz) (shift : U64 → Bool) (s : VEmu) (N : ℕ) :
    (∀ n < N, ∀ p, run shift host n (head s) = .ok p → Transfers shift host p)
      ↔ ∀ n < N, ∀ p, run shift host n (head s) = .ok p → Orderly shift host p := by
  have hlive : Live host (head s) := trivial
  constructor
  · intro h n hn p hrun
    exact (transfers_iff_orderly hb (live_run hlive hrun)).mp (h n hn p hrun)
  · intro h n hn p hrun
    exact (transfers_iff_orderly hb (live_run hlive hrun)).mpr (h n hn p hrun)

/-! ## An illegal instruction and an interrupt -/

/-- The word zero is no instruction, and the machine's handler is at address zero. -/
lemma orderly_userHart :
    Orderly shift (.bare .emu) (decode (userHart 0 0) 0 0 .NormalExecutionReturn) := by
  intro s₁ s₂ e hdecode hexec _ _
  have hview : ((userHart 0 0).decodeInto 0 >>= fun s₁ =>
      dispatch (.bare .emu) s₁.currInstr.name s₁ >>= fun (e, s₂) =>
        s₂.bus.mmu.loadInsn 0 >>= fun (_, exp) =>
          .ok (e, s₂.csrs.bit medeleg 2, s₂.csrs.loadCsr mtvec, exp))
      = .ok (.IllegalInstruction, false, 0, .NormalExecutionReturn) := by
    decide +kernel
  rw [hdecode, ok_bind, hexec, ok_bind, bind_eq_ok_iff] at hview
  obtain ⟨⟨w', exp⟩, hload, hview⟩ := hview
  simp only [Except.ok.injEq, Prod.mk.injEq] at hview
  obtain ⟨rfl, hdeleg, hmtvec, rfl⟩ := hview
  have hhandler : exceptionHandler shift s₂ .IllegalInstruction = 0 := by
    have hdelegated : delegatedAs shift s₂ (ReturnException.IllegalInstruction.code.setWidth 64)
        = false := hdeleg
    rw [exceptionHandler, tvecAs, hdelegated, if_neg (by simp), hmtvec]
    rfl
  refine ⟨w', { s₂ with pc := 0 }, ?_⟩
  rw [hhandler, VEmu.fetch, if_neg (by decide), hload]
  rfl

/-- Control goes to the handler of an illegal instruction. -/
theorem transfers_userHart :
    ∃ p, run (fun _ => false) (.bare .emu) 2 (head (userHart 0 0)) = .ok p
      ∧ Transfers (fun _ => false) (.bare .emu) p := by
  refine ⟨decode (userHart 0 0) 0 0 .NormalExecutionReturn, rfl,
    (transfers_iff (by decide) _ (userHart 0 0) 3).mpr (fun n hn p hrun => ?_) 2 (by decide) _ rfl⟩
  interval_cases n
  · obtain rfl := Except.ok.inj hrun
    intro _ i s₁ hcheck
    exact (Prod.mk.inj (Except.ok.inj hcheck)).1.symm
  · obtain rfl : Point.fetch (userHart 0 0) = p := Except.ok.inj hrun
    intro w e s₁ hfetch he
    exact absurd (Prod.mk.inj (Prod.mk.inj (Except.ok.inj hfetch)).1).2.symm he
  · obtain rfl : Point.decode (userHart 0 0) 0 0 .NormalExecutionReturn = p := Except.ok.inj hrun
    exact orderly_userHart

/-- A hart in user mode with an external interrupt pending, and both handlers at `0x104`. -/
def interruptedHart : VEmu :=
  { userHart 0x1000 0 with
    csrs := ⟨fun a => if a = mie ∨ a = mip then 0x800
      else if a = mtvec ∨ a = stvec then 0x104 else 0⟩ }

/-- Control does not go to the handler of an interrupt, whatever the undefined shift gives. -/
theorem not_transfers_interrupt :
    ¬ ∃ shift, Transfers shift (.bare .emu) (head interruptedHart) := by
  rintro ⟨shift, h⟩
  have hview : (interruptedHart.checkPendingInterrupt >>= fun r => .ok r.1)
      = .ok .MachineExternalInterrupt := by decide +kernel
  obtain ⟨⟨i, s₁⟩, hcheck, hi⟩ := bind_eq_ok_iff.mp hview
  obtain rfl := Except.ok.inj hi
  have hnone := (@transfers_head_iff shift _ _).mp h rfl _ _ hcheck
  cases hnone

end Point

end VEmu

end Vemu
