import Vemu.Refinement.Handlers

/-!
# One round refines one instruction of RV64I

`BaseStep host s i` says that the next round of `s` is an ordinary one on the instruction `i`: the
emulator is intact and running, no interrupt is pending, the fetched word is decoded to `i`, and
the data access of `i`, if it makes one, is admitted.

**`iterate_refines_iff`**: such a round leaves exactly the registers, the program counter and the
memory that the instruction set says, if and only if the access does not end with RAM.
-/

namespace Vemu

open Fallible Loop Riscv

/-! ## The state after the interrupts -/

namespace Bus

variable {bus bus' : Bus} {addr : U64}

/-- Where an access goes does not depend on the state of the devices. -/
lemma routesToRam_congr (h : bus'.devices.isNone = bus.devices.isNone) (addr : U64) :
    bus'.routesToRam addr = bus.routesToRam addr := by
  rw [routesToRam, h, routesToRam]

/-- A word is read from RAM, or refused by a device. -/
lemma load_word (bus : Bus) (addr : U64) :
    bus.load addr 32 = if bus.routesToRam addr then
        (bus.mmu.load addr 32 >>= fun r => .ok (r, bus))
      else .ok ((0, .LoadAccessFault), bus) := by
  by_cases h : bus.routesToRam addr = true
  · rw [if_pos h, load_of_ram h]
  · rw [if_neg h]
    cases hd : bus.devices with
    | none => simp [routesToRam, hd] at h
    | some d =>
        have h64 : ¬ 32 = 64 := by decide
        have h8 : ¬ 32 = 8 := by decide
        simp only [load, hd, CLINT.load, PLIC.load, UART.load, if_neg h64, if_neg h8]
        by_cases h1 : inWindow clintBase clintSize addr = true
        · rw [if_pos h1]
          rfl
        · by_cases h2 : inWindow plicBase plicSize addr = true
          · rw [if_neg h1, if_pos h2]
            rfl
          · by_cases h3 : inWindow uartBase uartSize addr = true
            · rw [if_neg h1, if_neg h2, if_pos h3, ← hd]
              rfl
            · simp [routesToRam, h1, h2, h3] at h

end Bus

namespace VEmu

variable {host : Host} {s s' : VEmu}

/-- The state after the interrupts were looked at and none was there. -/
def Polled (s s' : VEmu) : Prop :=
  ∃ csrs devices, devices.isNone = s.bus.devices.isNone
    ∧ s' = { s with csrs := csrs, bus := { s.bus with devices := devices } }

lemma poll_quiet (h : host.build ≠ .fuzz → ∃ s₁, s.checkPendingInterrupt = .ok (.NoInterrupt, s₁)) :
    ∃ s₁, s.poll host = .ok s₁ ∧ Polled s s₁ := by
  have hpoll : ∃ s₁, s.poll host = .ok s₁ := by
    by_cases hb : host.build = .fuzz
    · exact ⟨s, if_pos hb⟩
    · obtain ⟨s₁, h₁⟩ := h hb
      refine ⟨s₁, ?_⟩
      rw [poll, if_neg hb, h₁, ok_bind]
      rfl
  obtain ⟨s₁, h₁⟩ := hpoll
  exact ⟨s₁, h₁, poll_frame h₁⟩

/-- The fetch does not depend on the state of the devices. -/
lemma Polled.fetch {r : U32 × ReturnException} (h : Polled s s') (hf : s.fetch host = .ok (r, s)) :
    s'.fetch host = .ok (r, s') := by
  obtain ⟨csrs, devices, hdev, rfl⟩ := h
  unfold VEmu.fetch at hf ⊢
  split_ifs at hf ⊢ with hb
  · rw [VEmu.load, Bus.load_word] at hf ⊢
    rw [show Bus.routesToRam { s.bus with devices := devices } s.pc = s.bus.routesToRam s.pc from
      Bus.routesToRam_congr hdev s.pc]
    dsimp only at hf ⊢
    split_ifs at hf ⊢ with hram
    · cases hmmu : s.bus.mmu.load s.pc 32 with
      | error e =>
          rw [hmmu] at hf
          cases hf
      | ok v =>
          rw [hmmu] at hf
          simp only [ok_bind, pure_eq_ok, Except.ok.injEq, Prod.mk.injEq] at hf ⊢
          exact ⟨hf.1, trivial⟩
    · simp only [ok_bind, pure_eq_ok, Except.ok.injEq, Prod.mk.injEq] at hf ⊢
      exact ⟨hf.1, trivial⟩
  · dsimp only at hf ⊢
    cases hmmu : s.bus.mmu.loadInsn s.pc with
    | error e =>
        rw [hmmu] at hf
        cases hf
    | ok v =>
        rw [hmmu] at hf
        simp only [ok_bind, pure_eq_ok, Except.ok.injEq, Prod.mk.injEq] at hf ⊢
        exact ⟨hf.1, trivial⟩

/-! ## One round -/

/-- The next round of the emulator is an ordinary one on the instruction. -/
structure BaseStep (host : Host) (s : VEmu) (i : Rv64i) : Prop where
  intact : s.Intact host
  running : s.hasExited = false
  testing : host.build = .test → s.testFlagDone = false
  quiet : host.build ≠ .fuzz → ∃ s₁, s.checkPendingInterrupt = .ok (.NoInterrupt, s₁)
  decoded : ∃ w ins, s.fetch host = .ok ((w, .NormalExecutionReturn), s)
    ∧ (s.decoder.decode w).1 = .ok ins ∧ operation ins.name ins.f = some i
  admitted : ∀ acc ∈ i.access s.hart, s.Admitted acc

variable {i : Rv64i} {t : Hart}

/-- An ordinary round comes down to the handler, called in a state with the same hart and the same
memory. -/
lemma BaseStep.iterate_eq (h : BaseStep host s i) :
    ∃ s₁ n, s.iterate host = (handler host n s₁ >>= fun r =>
          (r.2.afterwards host.build r.1) >>= fun s' => .ok (.next { s' with pc := s'.pc + 4 }))
      ∧ operation n s₁.currInstr.f = some i ∧ s₁.hart = s.hart ∧ s₁.bus.mmu = s.bus.mmu
      ∧ s₁.bus.devices.isNone = s.bus.devices.isNone := by
  obtain ⟨w, ins, hfetch, hdecode, hop⟩ := h.decoded
  obtain ⟨s₁, hpoll, hpolled⟩ := poll_quiet h.quiet
  have hfetch₁ := hpolled.fetch hfetch
  obtain ⟨csrs, devices, hdev, rfl⟩ := hpolled
  have hmem : ins.name ∈ s.instFuncs := by
    rw [h.intact.instFuncs, mem_initFuncMap]
    intro hname
    rw [hname] at hop
    cases hop
  refine ⟨{ s with
    csrs := csrs, bus := { s.bus with devices := devices }, hexInstr := w, currInstr := ins
    decoder := (s.decoder.decode w).2 }, ins.name, ?_, hop, rfl, rfl, hdev⟩
  have htest : ¬ (host.build = .test ∧ s.testFlagDone = true) := by
    rintro ⟨hb, hflag⟩
    rw [h.testing hb] at hflag
    cases hflag
  rw [iterate, iterateWith, if_neg (by simp [h.running]), hpoll, ok_bind, if_neg htest, executeWith,
    hfetch₁, ok_bind]
  dsimp only
  rw [afterwards_normal, ok_bind, decodeInto]
  dsimp only
  rw [hdecode, ok_bind, pure_eq_ok, ok_bind, dispatchWith, if_pos hmem]
  rfl

/-- Admission depends on memory and on where accesses go. -/
lemma Admitted.congr {acc : Access} (h : s.Admitted acc) (hmmu : s'.bus.mmu = s.bus.mmu)
    (hdev : s'.bus.devices.isNone = s.bus.devices.isNone) : s'.Admitted acc where
  toRam := (Bus.routesToRam_congr hdev _).trans h.toRam
  inside := hmmu ▸ h.inside
  permitted := by
    unfold permAt
    rw [hmmu]
    exact h.permitted

lemma touchesRamEnd_congr (hhart : s'.hart = s.hart) (hmmu : s'.bus.mmu = s.bus.mmu) :
    s'.TouchesRamEnd i ↔ s.TouchesRamEnd i := by
  unfold TouchesRamEnd AtRamEnd
  rw [hhart, hmmu]

/-- An ordinary round whose access stays clear of the end of RAM does what the instruction set
says. -/
lemma BaseStep.iterate_performs (h : BaseStep host s i) (ht : i.exec s.hart = some t)
    (hend : ¬ s.TouchesRamEnd i) : ∃ s', s.iterate host = .ok (.next s') ∧ s'.hart = t := by
  obtain ⟨s₁, n, heq, hop, hhart, hmmu, hdev⟩ := h.iterate_eq
  have hperf : Performs (handler host n) s₁ t := by
    refine handler_performs host n (hmmu.symm ▸ h.intact.memory) hop ?_ ?_ (hhart.symm ▸ ht)
    · intro acc hacc
      rw [hhart] at hacc
      exact (h.admitted acc hacc).congr hmmu hdev
    · rwa [touchesRamEnd_congr hhart hmmu]
  obtain ⟨s₂, hs₂, hpc⟩ := hperf
  refine ⟨{ s₂ with pc := s₂.pc + 4 }, ?_, hpc⟩
  rw [heq, hs₂]
  rfl

/-- An ordinary round whose access ends with RAM ends the process. -/
lemma BaseStep.iterate_at_end (h : BaseStep host s i) (hend : s.TouchesRamEnd i) :
    s.iterate host = .error .assertFailed := by
  obtain ⟨s₁, n, heq, hop, hhart, hmmu, hdev⟩ := h.iterate_eq
  have hfail : handler host n s₁ = .error .assertFailed := by
    refine handler_at_end host n hop ?_ ((touchesRamEnd_congr hhart hmmu).mpr hend)
    intro acc hacc
    rw [hhart] at hacc
    exact (h.admitted acc hacc).congr hmmu hdev
  rw [heq, hfail, error_bind]

/-- **One round refines one instruction**, exactly when its access does not end with RAM. -/
theorem iterate_refines_iff (h : BaseStep host s i) (ht : i.exec s.hart = some t) :
    (∃ s', s.iterate host = .ok (.next s') ∧ s'.hart = t) ↔ ¬ s.TouchesRamEnd i := by
  constructor
  · rintro ⟨s', hs', -⟩ hend
    rw [h.iterate_at_end hend] at hs'
    cases hs'
  · exact h.iterate_performs ht

/-! ## An emulator with one page of RAM -/

/-- 4096 bytes of RAM that the guest may do anything with, and a word of code at address zero. -/
def onePageMemory (w : U32) : MMU :=
  (MMU.uniform 4096 (permExec ||| permRead ||| permWrite)).written 0 (MMU.split 4 (w.setWidth 64))

/-- An emulator of the fuzzing build with that memory, and an address in `x2`. -/
def onePage (w : U32) (x2 : U64) : VEmu where
  instFuncs := initFuncMap
  binFileName := []
  csrs := ⟨fun _ => 0⟩
  mode := .Machine
  bus := { devices := none, ramSize := 4096, mmu := onePageMemory w }
  iregs := RegFile.new.storeReg 2 x2
  fregs := fun _ => 0
  hexInstr := 0
  currInstr := ⟨.R, .LB, Fields.zero, ""⟩
  pc := 0
  codeSize := 4
  ramSize := 4096
  fileTable := standardFiles
  hasExited := false
  exitCode := 0
  testFlagDone := false
  decoder := .init
  hostCalls := 0

lemma intact_onePage (w : U32) (x2 : U64) : (onePage w x2).Intact (.bare .fuzz) where
  instFuncs := rfl
  memory := (MMU.backed_uniform (by decide) _).withContents _ _
  devices := rfl
  decoder := InstructionDecoder.consistent_init

/-- No byte of the page loses a permission by being written. -/
lemma permAt_onePage (w : U32) (x2 addr : U64) (k : ℕ) :
    (onePage w x2).permAt addr k = permExec ||| permRead ||| permWrite := by
  have hinit : MMU.initialised (permExec ||| permRead ||| permWrite)
      = permExec ||| permRead ||| permWrite := by decide
  by_cases hin : (0 : U64).toNat ≤ addr.toNat + k
      ∧ addr.toNat + k < (0 : U64).toNat + (MMU.split 4 (w.setWidth 64)).length
  · exact (mapOn_of_mem hin).trans hinit
  · exact mapOn_of_not_mem hin

/-- `lbu x1, 0(x2)`. -/
def lbuWord : U32 := 0x00014083

lemma baseStep_lbu {x2 : U64} (hx2 : x2.toNat < 4096) :
    BaseStep (.bare .fuzz) (onePage lbuWord x2) (.load .byte false 1 2 0) where
  intact := intact_onePage _ _
  running := rfl
  testing := fun h => by cases h
  quiet := fun h => absurd rfl h
  decoded := by
    have hdecode : ∃ ins, decodeOf lbuWord = .ok ins
        ∧ operation ins.name ins.f = some (.load .byte false 1 2 0) := by
      refine ⟨⟨.I, .LBU, fieldsOf lbuWord, "LBU"⟩, ?_, ?_⟩
      · decide +kernel
      · decide +kernel
    obtain ⟨ins, hins, hop⟩ := hdecode
    have hword : (onePageMemory lbuWord).loadInsn 0 = .ok (lbuWord, .NormalExecutionReturn) := by
      decide +kernel
    refine ⟨lbuWord, ins, ?_, ?_, hop⟩
    · rw [fetch, if_neg (by decide)]
      change ((onePageMemory lbuWord).loadInsn 0 >>= _) = _
      rw [hword]
      rfl
    · rw [← hins]
      exact (InstructionDecoder.decode_eq InstructionDecoder.consistent_init lbuWord).1
  admitted := by
    rintro acc hacc
    obtain rfl := Option.some.inj hacc
    have haddr : (onePage lbuWord x2).hart.x 2 + 0 = x2 := BitVec.add_zero x2
    refine ⟨rfl, ?_, ?_⟩
    · rw [haddr]
      exact hx2
    · intro k _
      rw [permAt_onePage, if_neg Bool.false_ne_true]
      decide

/-- A byte in the middle of RAM is loaded. -/
theorem iterate_refines_iff_lbu :
    ∃ s', (onePage lbuWord 0).iterate (.bare .fuzz) = .ok (.next s')
      ∧ some s'.hart = (Rv64i.load .byte false 1 2 0).exec (onePage lbuWord 0).hart := by
  obtain ⟨t, ht⟩ : ∃ t, (Rv64i.load .byte false 1 2 0).exec (onePage lbuWord 0).hart = some t :=
    ⟨_, rfl⟩
  obtain ⟨s', hs', rfl⟩ := (iterate_refines_iff (baseStep_lbu (by decide)) ht).mpr (by decide)
  exact ⟨s', hs', ht.symm⟩

/-- The last byte of RAM is not: the process ends. -/
theorem not_iterate_refines_last_byte :
    ∃ i t, BaseStep (.bare .fuzz) (onePage lbuWord 4095) i
      ∧ i.exec (onePage lbuWord 4095).hart = some t
      ∧ (onePage lbuWord 4095).iterate (.bare .fuzz) = .error .assertFailed
      ∧ ¬ ∃ s', (onePage lbuWord 4095).iterate (.bare .fuzz) = .ok (.next s') ∧ s'.hart = t := by
  have hstep : BaseStep (.bare .fuzz) (onePage lbuWord 4095) (.load .byte false 1 2 0) :=
    baseStep_lbu (by decide)
  have hfail := hstep.iterate_at_end (by decide)
  refine ⟨_, _, hstep, rfl, hfail, ?_⟩
  rintro ⟨s', hs', -⟩
  rw [hfail] at hs'
  cases hs'

end VEmu

end Vemu
