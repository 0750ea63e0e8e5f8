import Vemu.Fuzz
import Vemu.Invariant

/-!
# What a run does not depend on

The decoder is a singleton with caches, and some members of an emulator are written but not read, or
not initialised before they are written.  `Past` collects them.  A handler does not look at them
(`Forgetful`), and a decoder whose caches are in order answers as if it had none; so whatever the
process has executed before, a program runs in the same way.

**`run_forgets`**: emulators that agree in everything else come to the same end, round by round.
**`ofInfo_forgets`**: and so do the emulators that are made in storage with the same contents.
-/

namespace Vemu

open Fallible

namespace VEmu

variable {host : Host} {s t : VEmu}

/-- What an emulator has of the past. -/
structure Past where
  decoder : InstructionDecoder
  hexInstr : U32
  codeSize : U64

/-- The emulator with another past. -/
def recalling (p : Past) (s : VEmu) : VEmu :=
  { s with decoder := p.decoder, hexInstr := p.hexInstr, codeSize := p.codeSize }

/-- The outcome of a handler with another past. -/
abbrev recalled (p : Past) (x : Except Fault (ReturnException × VEmu)) :
    Except Fault (ReturnException × VEmu) := x.map (Prod.map id (recalling p))

/-- The handler does not look at the past. -/
def Forgetful (h : Handler) : Prop := ∀ p s, h (s.recalling p) = recalled p (h s)

/-! ## The families -/

lemma load_recalling (p : Past) (s : VEmu) (addr : U64) (sz : ℕ) :
    (s.recalling p).load addr sz = (s.load addr sz).map (Prod.map id (recalling p)) := by
  change (s.bus.load addr sz >>= _) = _
  unfold load
  cases s.bus.load addr sz <;> rfl

lemma store_forgetful (addr data : VEmu → U64) (sz : ℕ) (ha : ∀ p s, addr (s.recalling p) = addr s)
    (hd : ∀ p s, data (s.recalling p) = data s) :
    Forgetful fun s => s.store (addr s) (data s) sz := by
  intro p s
  dsimp only
  rw [ha, hd]
  change (s.bus.store (addr s) (data s) sz >>= _) = _
  unfold store
  cases s.bus.store (addr s) (data s) sz <;> rfl

lemma branch_forgetful (taken : U64 → U64 → Bool) : Forgetful (branch taken) := by
  intro p s
  change normal (if taken (s.loadReg s.rs1) (s.loadReg s.rs2) then _ else _) = _
  unfold branch
  split
  · rfl
  · rfl

lemma dividing_forgetful (f : U64 → U64 → Option U64) : Forgetful (dividing f) := by
  intro p s
  unfold dividing
  have hres : f ((s.recalling p).loadReg (s.recalling p).rs1)
      ((s.recalling p).loadReg (s.recalling p).rs2) = f (s.loadReg s.rs1) (s.loadReg s.rs2) := rfl
  rw [hres]
  cases f (s.loadReg s.rs1) (s.loadReg s.rs2) <;> rfl

lemma loadUnsigned_forgetful (sz : ℕ) : Forgetful (loadUnsigned sz) := by
  intro p s
  change ((s.recalling p).load (s.loadReg s.rs1 + s.imm) sz >>= _) = _
  rw [load_recalling, loadUnsigned]
  cases s.load (s.loadReg s.rs1 + s.imm) sz with
  | error => rfl
  | ok r =>
      obtain ⟨⟨res, exp⟩, s₁⟩ := r
      change (if exp ≠ .NormalExecutionReturn then _ else _)
        = recalled p (if exp ≠ .NormalExecutionReturn then _ else _)
      split_ifs
      · rfl
      · rfl

lemma loadSigned_forgetful (bits : ℕ) {unsigned : Handler} (hu : Forgetful unsigned) :
    Forgetful (loadSigned bits unsigned) := by
  intro p s
  rw [loadSigned, hu, loadSigned]
  cases unsigned s <;> rfl

lemma forgetful_ite {c : VEmu → Prop} [DecidablePred c] {h h' : Handler}
    (hc : ∀ p s, c (s.recalling p) = c s) (hh : Forgetful h) (hh' : Forgetful h') :
    Forgetful fun s => if c s then h s else h' s := by
  intro p s
  have hiff : c (s.recalling p) ↔ c s := iff_of_eq (hc p s)
  by_cases hs : c s
  · exact (if_pos (hiff.mpr hs)).trans ((hh p s).trans (congrArg _ (if_pos hs).symm))
  · exact (if_neg (mt hiff.mp hs)).trans ((hh' p s).trans (congrArg _ (if_neg hs).symm))

/-- A check of the address comes before the access. -/
lemma forgetful_aligned {sz : ℕ} {e : ReturnException} {h : Handler} (hh : Forgetful h) :
    Forgetful fun s => if (!aligned (s.loadReg s.rs1) sz) = true then pure (e, s) else h s :=
  forgetful_ite (fun _ _ => rfl) (fun _ _ => rfl) hh

lemma loadReserved_forgetful (sz : ℕ) : Forgetful (loadReserved sz) := by
  refine forgetful_aligned ?_
  intro p s
  change ((s.recalling p).load (s.loadReg s.rs1) sz >>= _)
    = recalled p (s.load (s.loadReg s.rs1) sz >>= _)
  rw [load_recalling]
  cases s.load (s.loadReg s.rs1) sz with
  | error => rfl
  | ok r =>
      obtain ⟨⟨res, exp⟩, s₁⟩ := r
      change (if exp ≠ .NormalExecutionReturn then _ else _)
        = recalled p (if exp ≠ .NormalExecutionReturn then _ else _)
      split_ifs
      · rfl
      · rfl

lemma store_recalling (p : Past) (s : VEmu) (addr data : U64) (sz : ℕ) :
    (s.recalling p).store addr data sz = recalled p (s.store addr data sz) :=
  store_forgetful (fun _ => addr) (fun _ => data) sz (fun _ _ => rfl) (fun _ _ => rfl) p s

lemma storeConditional_forgetful (sz : ℕ) : Forgetful (storeConditional sz) := by
  refine forgetful_aligned ?_
  intro p s
  change ((s.recalling p).store (s.loadReg s.rs1) (s.loadReg s.rs2) sz >>= _)
    = recalled p (s.store (s.loadReg s.rs1) (s.loadReg s.rs2) sz >>= _)
  rw [store_recalling]
  cases s.store (s.loadReg s.rs1) (s.loadReg s.rs2) sz <;> rfl

lemma amo_forgetful (sz : ℕ) (old : U64 → U64) (f : U64 → U64 → U64) :
    Forgetful (amo sz old f) := by
  refine forgetful_aligned ?_
  intro p s
  change ((s.recalling p).load (s.loadReg s.rs1) sz >>= _)
    = recalled p (s.load (s.loadReg s.rs1) sz >>= _)
  rw [load_recalling]
  cases s.load (s.loadReg s.rs1) sz with
  | error => rfl
  | ok r =>
      obtain ⟨⟨tmp, exp⟩, s₁⟩ := r
      change (if exp ≠ .NormalExecutionReturn then _ else
          (s₁.recalling p).store (s.loadReg s.rs1) (f tmp (s₁.loadReg s₁.rs2)) sz >>= _)
        = recalled p (if exp ≠ .NormalExecutionReturn then _ else
          s₁.store (s.loadReg s.rs1) (f tmp (s₁.loadReg s₁.rs2)) sz >>= _)
      rw [store_recalling]
      split_ifs
      · rfl
      · cases s₁.store (s.loadReg s.rs1) (f tmp (s₁.loadReg s₁.rs2)) sz with
        | error => rfl
        | ok r =>
            obtain ⟨exp', s₂⟩ := r
            change (if exp' ≠ .NormalExecutionReturn then _ else _)
              = recalled p (if exp' ≠ .NormalExecutionReturn then _ else _)
            split_ifs
            · rfl
            · rfl

lemma common_forget : CommonFamilies Forgetful where
  regReg := fun _ _ _ => rfl
  regImm := fun _ _ _ => rfl
  shiftImm := fun _ _ _ _ => rfl
  shiftReg := fun _ _ _ _ => rfl
  loadUnsigned := loadUnsigned_forgetful
  loadSigned := fun bits sz => loadSigned_forgetful bits (loadUnsigned_forgetful sz)
  storeData := fun sz f =>
    store_forgetful (fun s => s.loadReg s.rs1 + s.imm) (fun s => f (s.loadReg s.rs2)) sz
      (fun _ _ => rfl) fun _ _ => rfl
  loadReserved := loadReserved_forgetful
  storeConditional := storeConditional_forgetful
  amo := amo_forgetful
  upper := ⟨fun _ _ => rfl, fun _ _ => rfl⟩
  report := fun h r hh p s => by
    rw [hh, hh]
    rfl
  branch := branch_forgetful
  jump := ⟨fun _ _ => rfl, fun _ _ => rfl⟩

/-! ## The environment -/

lemma csrModify_forgetful {operand : VEmu → U64} (ho : ∀ p s, operand (s.recalling p) = operand s)
    (f : U64 → U64 → U64) : Forgetful (csrModify operand f) := by
  intro p s
  unfold csrModify
  dsimp only
  rw [ho]
  rfl

lemma mret_forgetful : Forgetful MRET := by
  intro p s
  change (mretMode ((s.csrs.loadCsr mstatus >>> 11) &&& 0b11) >>= _)
    = recalled p (mretMode ((s.csrs.loadCsr mstatus >>> 11) &&& 0b11) >>= _)
  cases mretMode ((s.csrs.loadCsr mstatus >>> 11) &&& 0b11) <;> rfl

lemma sysBrk_forgetful : Forgetful sysBrk := by
  intro p s
  rw [sysBrk_eq, sysBrk_eq]
  change (if s.rejectsBrk then _ else s.bus.mmu.allocate s.brkIncrement >>= _) = _
  split_ifs
  · rfl
  · exact bind_eq_map fun _ => rfl

lemma sysOpen_forgetful : Forgetful (sysOpen host) := fun _ _ =>
  bind_eq_map fun _ => bind_eq_map fun _ => bind_eq_map fun _ => bind_eq_map fun _ =>
    bind_eq_map fun _ => rfl

lemma sysClose_forgetful : Forgetful sysClose := by
  intro p s
  unfold sysClose
  change (if s.fileTable.any (·.fd = (s.loadReg regA0).setWidth 32) then _ else _) = _
  dsimp only
  split_ifs
  · rfl
  · rfl

lemma sysFstat_forgetful : Forgetful (sysFstat host) := fun _ _ =>
  bind_eq_map fun _ => bind_eq_map fun _ => bind_eq_map fun _ => rfl

/-- The handle of a descriptor in a register. -/
lemma openHandle_recalling (p : Past) (s : VEmu) :
    ((s.recalling p).fileTable.find? fun fh =>
        decide (fh.fd.signExtend 64 = (s.recalling p).loadReg regA0))
      = s.fileTable.find? fun fh => decide (fh.fd.signExtend 64 = s.loadReg regA0) := rfl

lemma sysLseek_forgetful : Forgetful sysLseek := by
  intro p s
  unfold sysLseek
  dsimp only
  rw [openHandle_recalling]
  cases s.fileTable.find? fun fh => decide (fh.fd.signExtend 64 = s.loadReg regA0) with
  | none => rfl
  | some fh => exact bind_eq_map fun _ => rfl

lemma sysRead_forgetful : Forgetful sysRead := by
  intro p s
  unfold sysRead
  dsimp only
  rw [openHandle_recalling]
  cases s.fileTable.find? fun fh => decide (fh.fd.signExtend 64 = s.loadReg regA0) with
  | none => rfl
  | some fh =>
      change (if readCount fh (s.loadReg regA2) = 0 then _ else _) = _
      dsimp only
      split_ifs
      · rfl
      · exact bind_eq_map fun _ => bind_eq_map fun _ => rfl

lemma ecallFuzz_forgetful : Forgetful (ecallFuzz host) :=
  forgetful_ite (fun _ _ => rfl) sysBrk_forgetful <|
  forgetful_ite (fun _ _ => rfl) (fun _ _ => rfl) <|
  forgetful_ite (fun _ _ => rfl) sysOpen_forgetful <|
  forgetful_ite (fun _ _ => rfl) sysClose_forgetful <|
  forgetful_ite (fun _ _ => rfl) (fun _ _ => rfl) <|
  forgetful_ite (fun _ _ => rfl) sysFstat_forgetful <|
  forgetful_ite (fun _ _ => rfl) sysLseek_forgetful <|
  forgetful_ite (fun _ _ => rfl) sysRead_forgetful fun _ _ => rfl

lemma ecall_forgetful (host : Host) : Forgetful (handler host .ECALL) := by
  simp only [handler]
  cases host.build with
  | fuzz => exact ecallFuzz_forgetful
  | test => exact fun _ _ => rfl
  | emu =>
      intro p s
      have hmode : (s.recalling p).mode = s.mode := rfl
      change ecallEmu (s.recalling p) = recalled p (ecallEmu s)
      rw [ecallEmu, ecallEmu, hmode]
      cases s.mode <;> rfl

/-- **No handler looks at the past.** -/
theorem handler_forgetful (host : Host) (n : IName) : Forgetful (handler host n) :=
  common_forget.handler_of dividing_forgetful (csrModify_forgetful fun _ _ => rfl)
    (csrModify_forgetful fun _ _ => rfl) mret_forgetful (fun _ _ => rfl) host
    fun _ => ecall_forgetful host

/-! ## A round -/

/-- The emulator with another past and another instruction, before the next one is decoded. -/
def revised (p : Past) (i : Instruction) (s : VEmu) : VEmu := { s.recalling p with currInstr := i }

/-- The function of states can be called before the change or after it. -/
def Commutes (g : VEmu → VEmu) (f : VEmu → Except Fault VEmu) : Prop := ∀ s, f (g s) = (f s).map g

section Commutes

variable {g : VEmu → VEmu} {f f' : VEmu → Except Fault VEmu}

lemma commutes_ite {c : VEmu → Prop} [DecidablePred c] (hc : ∀ s, c (g s) = c s) (hf : Commutes g f)
    (hf' : Commutes g f') : Commutes g fun s => if c s then f s else f' s := by
  intro s
  have hiff : c (g s) ↔ c s := iff_of_eq (hc s)
  by_cases hs : c s
  · exact (if_pos (hiff.mpr hs)).trans ((hf s).trans (congrArg _ (if_pos hs).symm))
  · exact (if_neg (mt hiff.mp hs)).trans ((hf' s).trans (congrArg _ (if_neg hs).symm))

lemma Commutes.bind (hf : Commutes g f) (hf' : Commutes g f') : Commutes g fun s => f s >>= f' := by
  intro s
  dsimp only
  rw [hf s]
  cases f s with
  | error => rfl
  | ok s₁ => exact hf' s₁

/-- A change that does not touch what a trap reads and writes. -/
structure Transparent (g : VEmu → VEmu) : Prop where
  mode : ∀ s, (g s).mode = s.mode
  pc : ∀ s, (g s).pc = s.pc
  csrs : ∀ s, (g s).csrs = s.csrs
  entered : ∀ s mode pc csrs,
    { g s with mode := mode, pc := pc, csrs := csrs }
      = g { s with mode := mode, pc := pc, csrs := csrs }

namespace Transparent

variable (hg : Transparent g)
include hg

/-- Traps and interrupts enter a handler in the same way. -/
lemma enter (cause : U64) (sHandler mHandler : Csrs → U64) :
    Commutes g fun s => s.delegated cause >>= fun doDeleg =>
      if s.mode ≠ .Machine ∧ doDeleg then pure (s.enterSupervisor cause (sHandler s.csrs))
      else pure (s.enterMachine cause (mHandler s.csrs)) := by
  intro s
  simp only [delegated, enterSupervisor, enterMachine, hg.mode, hg.pc, hg.csrs, hg.entered]
  refine bind_eq_map fun doDeleg => ?_
  split_ifs
  · rfl
  · rfl

lemma trap (build : Build) (e : ReturnException) : Commutes g fun s => s.trap build e :=
  commutes_ite (fun _ => rfl) (fun _ => rfl)
    (hg.enter (e.code.setWidth 64) (fun c => c.loadCsr stvec &&& allBut32 0)
      fun c => c.loadCsr mtvec &&& allBut32 0)

lemma afterwards (build : Build) (e : ReturnException) : Commutes g fun s => s.afterwards build e :=
  commutes_ite (fun _ => rfl) (fun _ => rfl) <| (hg.trap build e).bind <|
    commutes_ite (c := fun _ => isFatal e = true) (fun _ => rfl) (fun _ => rfl) fun _ => rfl

lemma takeInterrupt (int : Interrupt) : Commutes g fun s => s.takeInterrupt int :=
  hg.enter ((1 <<< 63) ||| int.code) (fun c => vectored (c.loadCsr stvec) ((1 <<< 63) ||| int.code))
    fun c => vectored (c.loadCsr mtvec) ((1 <<< 63) ||| int.code)

end Transparent

end Commutes

variable {p : Past} {i : Instruction}

lemma transparent_revised : Transparent (revised p i) :=
  ⟨fun _ => rfl, fun _ => rfl, fun _ => rfl, fun _ _ _ _ => rfl⟩

lemma store_revised (s : VEmu) (addr data : U64) (sz : ℕ) :
    (s.revised p i).store addr data sz
      = (s.store addr data sz).map (Prod.map id (revised p i)) := by
  change (s.bus.store addr data sz >>= _) = _
  unfold store
  cases s.bus.store addr data sz <;> rfl

lemma pollUart_revised : Commutes (revised p i) pollUart := by
  intro s
  refine bind_eq_map fun r => ?_
  obtain ⟨irq, bus⟩ := r
  change (if irq then
      (({ s with bus := bus } : VEmu).revised p i).store plicSclaim 32 uartIrq.toNat >>= _ else _)
    = (if irq then
      ({ s with bus := bus } : VEmu).store plicSclaim 32 uartIrq.toNat >>= _
        else _ : Except Fault VEmu).map _
  rw [store_revised]
  split_ifs
  · cases VEmu.store { s with bus := bus } plicSclaim 32 uartIrq.toNat <;> rfl
  · rfl

lemma checkPendingInterrupt_revised (s : VEmu) :
    (s.revised p i).checkPendingInterrupt
      = s.checkPendingInterrupt.map (Prod.map id (revised p i)) := by
  unfold checkPendingInterrupt
  change (if s.interruptsOff then _ else (s.revised p i).pollUart >>= _) = _
  rw [pollUart_revised s]
  split_ifs
  · rfl
  · cases s.pollUart with
    | error => rfl
    | ok s₁ =>
        have hcsrs : (s₁.revised p i).csrs = s₁.csrs := rfl
        simp only [Except.map, ok_bind, hcsrs]
        split
        · rfl
        · rfl

lemma poll_revised (host : Host) : Commutes (revised p i) fun s => s.poll host := by
  refine commutes_ite (fun _ => rfl) (fun _ => rfl) fun s => ?_
  rw [checkPendingInterrupt_revised]
  cases s.checkPendingInterrupt with
  | error => rfl
  | ok r =>
      obtain ⟨int, s₁⟩ := r
      exact commutes_ite (c := fun _ => int = .NoInterrupt) (fun _ => rfl) (fun _ => rfl)
        (transparent_revised.takeInterrupt int) s₁

lemma fetch_revised (host : Host) (s : VEmu) :
    (s.revised p i).fetch host = (s.fetch host).map (Prod.map id (revised p i)) := by
  unfold fetch
  split_ifs
  · change ((s.revised p i).load s.pc 32 >>= _) = _
    unfold load
    change ((s.bus.load s.pc 32 >>= _) >>= _) = _
    cases s.bus.load s.pc 32 <;> rfl
  · exact bind_eq_map fun _ => rfl

lemma dispatch_forgetful (host : Host) (n : IName) : Forgetful (dispatch host n) :=
  forgetful_ite (fun _ _ => rfl) (handler_forgetful host n) fun _ _ => rfl

/-- **The decoder forgets as well**: what it answers is a function of the word. -/
lemma decodeInto_revised (hs : s.decoder.Consistent) (hp : p.decoder.Consistent) (w : U32) :
    (s.revised p i).decodeInto w
      = (s.decodeInto w).map (recalling ⟨(p.decoder.decode w).2, w, p.codeSize⟩) := by
  have hword : (p.decoder.decode w).1 = (s.decoder.decode w).1 :=
    (InstructionDecoder.decode_eq hp w).1.trans (InstructionDecoder.decode_eq hs w).1.symm
  change ((p.decoder.decode w).1 >>= _) = ((s.decoder.decode w).1 >>= _ : Except Fault VEmu).map _
  rw [hword]
  exact bind_eq_map fun _ => rfl

lemma execute_forgets (host : Host) (hs : s.decoder.Consistent) (hp : p.decoder.Consistent) :
    ∃ p', (s.revised p i).execute host = recalled p' (s.execute host) := by
  unfold execute executeWith
  rw [fetch_revised]
  cases hfetch : s.fetch host with
  | error => exact ⟨p, rfl⟩
  | ok r =>
      obtain ⟨⟨w, exp⟩, s₁⟩ := r
      obtain rfl := fetch_frame hfetch
      have hafter := (transparent_revised (p := p) (i := i)).afterwards host.build exp s₁
      dsimp only at hafter
      change ∃ p', ((s₁.revised p i).afterwards host.build exp >>= _)
        = recalled p' (s₁.afterwards host.build exp >>= _)
      rw [hafter]
      cases hs₂ : s₁.afterwards host.build exp with
      | error => exact ⟨p, rfl⟩
      | ok s₂ =>
          obtain ⟨csrs, mode, pc, heq⟩ := afterwards_frame hs₂
          have hs₂' : s₂.decoder.Consistent := heq ▸ hs
          refine ⟨⟨(p.decoder.decode w).2, w, p.codeSize⟩, ?_⟩
          change ((s₂.revised p i).decodeInto w >>= _) = recalled _ (s₂.decodeInto w >>= _)
          rw [decodeInto_revised hs₂' hp]
          cases s₂.decodeInto w with
          | error => rfl
          | ok s₃ => exact dispatch_forgetful host _ _ s₃

def Turn.map (f : VEmu → VEmu) : Turn → Turn
  | .returned code => .returned code
  | .next s => .next (f s)

/-- The end of a round. -/
lemma finish_recalling (build : Build) (p : Past) (s : VEmu) (e : ReturnException) :
    ((s.recalling p).afterwards build e >>= fun s => .ok (Turn.next { s with pc := s.pc + 4 }))
      = (s.afterwards build e >>= fun s => .ok (Turn.next { s with pc := s.pc + 4 })).map
          (Turn.map (recalling p)) := by
  have h := (transparent_revised (p := p) (i := s.currInstr)).afterwards build e s
  dsimp only at h
  change (s.recalling p).afterwards build e = _ at h
  rw [h]
  cases hs : s.afterwards build e with
  | error => rfl
  | ok s₁ =>
      obtain ⟨csrs, mode, pc, rfl⟩ := afterwards_frame hs
      rfl

/-- **A round forgets.** -/
lemma iterate_forgets (host : Host) (hs : s.decoder.Consistent) (hp : p.decoder.Consistent) :
    ∃ p', (s.revised p i).iterate host = (s.iterate host).map (Turn.map (recalling p')) := by
  change ∃ p', (if s.hasExited then _ else (s.revised p i).poll host >>= _) = _
  unfold iterate iterateWith
  have hpoll := poll_revised (p := p) (i := i) host s
  dsimp only at hpoll
  rw [hpoll]
  split_ifs with hex
  · exact ⟨p, rfl⟩
  · cases hs₁ : s.poll host with
    | error => exact ⟨p, rfl⟩
    | ok s₁ =>
        obtain ⟨csrs, devices, -, heq⟩ := poll_frame hs₁
        have hs₁' : s₁.decoder.Consistent := heq ▸ hs
        obtain ⟨p', hexecute⟩ := execute_forgets host (i := i) hs₁' hp
        change ∃ p', (if host.build = .test ∧ s₁.testFlagDone then _
            else (s₁.revised p i).execute host >>= _)
          = (if host.build = .test ∧ s₁.testFlagDone then _
            else s₁.execute host >>= _ : Except Fault Turn).map _
        rw [hexecute]
        refine ⟨p', ?_⟩
        split_ifs
        · rfl
        · cases s₁.execute host with
          | error => rfl
          | ok r => exact finish_recalling host.build p' r.2 r.1

/-! ## A run -/

lemma Intact.revised (hs : s.Intact host) (hp : p.decoder.Consistent) :
    (s.revised p i).Intact host :=
  ⟨hs.instFuncs, hs.memory, hs.devices, hp⟩

/-- **A run forgets.**  Whatever the process has decoded before, and whatever the members that are
set in every round hold at first, the rounds end with the same fault, return the same code, or
leave emulators that agree in everything else. -/
theorem run_forgets (host : Host) (n : ℕ) (s : VEmu) (p : Past) (i : Instruction)
    (hs : s.Intact host) (hp : p.decoder.Consistent) :
    ∃ q j, (s.revised p i).run host n = (s.run host n).map (Turn.map (VEmu.revised q j)) := by
  induction n generalizing s p i with
  | zero => exact ⟨p, i, rfl⟩
  | succ n ih =>
      obtain ⟨p', h⟩ := iterate_forgets host (i := i) hs.decoder hp
      change ∃ q j, ((s.revised p i).iterate host >>= _)
        = (s.iterate host >>= _ : Except Fault Turn).map _
      cases hturn : s.iterate host with
      | error f =>
          rw [hturn] at h
          rw [h]
          exact ⟨p, i, rfl⟩
      | ok turn =>
          rw [hturn] at h
          cases turn with
          | returned code =>
              rw [h]
              exact ⟨p, i, rfl⟩
          | next s₁ =>
              -- the caches stay in order because the other emulator is intact as well
              have hp' : p'.decoder.Consistent := ((hs.revised hp).iterate h).decoder
              rw [h]
              exact ih s₁ p' s₁.currInstr (hs.iterate hturn) hp'

/-! ## Construction -/

/-- The same bytes in the arrays, and the same values in the members that are read before they are
written. -/
structure SameStorage (junk junk' : Junk) : Prop where
  ram : junk.ram = junk'.ram
  perm : junk.perm = junk'.perm
  interrupting : junk.interrupting = junk'.interrupting
  csrs : junk.csrs = junk'.csrs

lemma SameStorage.refl (junk : Junk) : SameStorage junk junk := ⟨rfl, rfl, rfl, rfl⟩

/-- What an emulator has of the past when it is made. -/
def Past.ofJunk (junk : Junk) (decoder : InstructionDecoder) : Past :=
  ⟨decoder, junk.hexInstr, junk.codeSize⟩

lemma blank_forgets {junk junk' : Junk} (h : SameStorage junk junk') (host : Host)
    (decoder decoder' : InstructionDecoder) (hostCalls : ℕ) (fName : List U8)
    (startPc memSize : U64) :
    blank host junk' decoder' hostCalls fName startPc memSize
      = (blank host junk decoder hostCalls fName startPc memSize).map
          (revised (.ofJunk junk' decoder') junk'.currInstr) := by
  unfold blank
  rw [h.ram, h.perm, h.interrupting, h.csrs]
  refine bind_eq_map fun bus => ?_
  dsimp only
  split_ifs
  · rfl
  · rfl

lemma pushToStack_revised (data : U64) (sz : ℕ) :
    Commutes (revised p i) fun s => s.pushToStack data sz := by
  intro s
  change ((s.revised p i).store (s.loadReg regSp - BitVec.ofNat 64 (sz / 8)) data sz >>= _)
    = (s.store (s.loadReg regSp - BitVec.ofNat 64 (sz / 8)) data sz >>= _ : Except Fault VEmu).map _
  rw [store_revised]
  cases s.store (s.loadReg regSp - BitVec.ofNat 64 (sz / 8)) data sz <;> rfl

lemma pushString_revised (arg : List U8) : Commutes (revised p i) fun s => s.pushString arg := by
  intro s
  refine bind_eq_map fun r => ?_
  obtain ⟨argval, mmu⟩ := r
  have hwrite : Commutes (revised p i) fun s => s.writeStringToAddr arg argval :=
    fun _ => bind_eq_map fun _ => rfl
  exact (hwrite.bind (pushToStack_revised argval 64)) (s.withMmu mmu)

lemma foldlM_revised {α : Type} {f : VEmu → α → Except Fault VEmu}
    (hf : ∀ a, Commutes (revised p i) fun s => f s a) (l : List α) :
    Commutes (revised p i) fun s => l.foldlM f s := by
  induction l with
  | nil => exact fun _ => rfl
  | cons a l ih => exact (hf a).bind ih

/-- **A constructor forgets.** -/
lemma ofInfo_forgets {junk junk' : Junk} (h : SameStorage junk junk') (host : Host)
    (decoder decoder' : InstructionDecoder) (hostCalls : ℕ) (info : FileInfo)
    (args : List (List U8)) (memSize : U64) :
    ofInfo host junk' decoder' hostCalls info args memSize
      = (ofInfo host junk decoder hostCalls info args memSize).map
          (revised (.ofJunk junk' decoder') junk'.currInstr) := by
  unfold ofInfo ofFile
  rw [blank_forgets h]
  cases blank host junk decoder hostCalls [] info.entryPoint memSize with
  | error => rfl
  | ok s =>
      change (s.bus.mmu.loadFile info >>= _)
        = (s.bus.mmu.loadFile info >>= _ : Except Fault VEmu).map _
      refine bind_eq_map fun mmu => bind_eq_map fun r => ?_
      obtain ⟨stackBase, mmu'⟩ := r
      have hpush : Commutes (revised (.ofJunk junk' decoder') junk'.currInstr)
          fun s => s.pushToStack 0 64 := pushToStack_revised 0 64
      exact (hpush.bind <| hpush.bind <| hpush.bind <|
          (foldlM_revised pushString_revised args.reverse).bind <|
            (pushString_revised info.fileName).bind <|
              pushToStack_revised (BitVec.ofNat 64 args.length + 1) 64)
        (({ s.withMmu mmu' with binFileName := info.fileName } : VEmu).storeReg regSp
          (stackBase + stackSize))

end VEmu

end Vemu
