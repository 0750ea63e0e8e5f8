import Vemu.Loader

/-!
# What the parts of a round leave alone

Each part of a round changes a few members of the emulator: the interrupts the control
registers and the devices, a trap the control registers, the mode and the program counter, the
fetch nothing, the decoder what it decoded.  The lemmas write the state afterwards as an update
of the state before, so that every other member is the same by definition.

An interrupt that is pending ends the process: `take_interrupt` shifts by its cause, in which
bit 63 is set (`takeInterrupt_eq`).
-/

namespace Vemu

open Fallible

/-! ## The bus -/

/-- A store of a double word to a device. -/
def Devices.stored64 (d : Devices) (addr data : U64) : Devices :=
  if Bus.inWindow clintBase clintSize addr then { d with clint := d.clint.store64 addr data }
  else if Bus.inWindow plicBase plicSize addr then { d with plic := d.plic.store64 addr data }
  else d

namespace Bus

variable {bus bus' : Bus} {addr data : U64} {sz : ℕ}

lemma load_of_ram (h : bus.routesToRam addr = true) :
    bus.load addr sz = (bus.mmu.load addr sz >>= fun r => .ok (r, bus)) := by
  cases hd : bus.devices with
  | none => simp only [load, hd]; rfl
  | some d =>
      simp only [routesToRam, hd, Option.isNone_some, Bool.false_or, Bool.not_eq_true',
        Bool.or_eq_false_iff] at h
      simp only [load, hd, h.1.1, h.1.2, h.2, Bool.false_eq_true, if_false]
      rfl

lemma store_of_ram (h : bus.routesToRam addr = true) :
    bus.store addr data sz = bus.storeRam addr data sz := by
  cases hd : bus.devices with
  | none => simp only [store, hd]
  | some d =>
      simp only [routesToRam, hd, Option.isNone_some, Bool.false_or, Bool.not_eq_true',
        Bool.or_eq_false_iff] at h
      simp only [store, hd, h.1.1, h.1.2, h.2, Bool.false_eq_true, if_false]

/-- Only a byte read from the serial port changes anything. -/
lemma load_frame (hsz : sz ≠ 8) {r : U64 × ReturnException}
    (h : bus.load addr sz = .ok (r, bus')) : bus' = bus := by
  cases hd : bus.devices with
  | none =>
      simp only [load, hd] at h
      obtain ⟨r', -, h⟩ := bind_eq_ok_iff.mp h
      simp only [pure_eq_ok, Except.ok.injEq, Prod.mk.injEq] at h
      exact h.2.symm
  | some d =>
      simp only [load, hd] at h
      split_ifs at h with h1 h2 h3
      · simp only [pure_eq_ok, Except.ok.injEq, Prod.mk.injEq] at h
        exact h.2.symm
      · simp only [pure_eq_ok, Except.ok.injEq, Prod.mk.injEq] at h
        exact h.2.symm
      · simp only [UART.load, if_neg hsz, pure_eq_ok, Except.ok.injEq, Prod.mk.injEq] at h
        rw [← h.2, ← hd]
      · obtain ⟨r', -, h⟩ := bind_eq_ok_iff.mp h
        simp only [pure_eq_ok, Except.ok.injEq, Prod.mk.injEq] at h
        exact h.2.symm

/-- A load leaves memory alone. -/
lemma load_leaves {r : U64 × ReturnException} (h : bus.load addr sz = .ok (r, bus')) :
    bus'.mmu = bus.mmu ∧ bus'.devices.isNone = bus.devices.isNone := by
  by_cases hram : bus.routesToRam addr = true
  · rw [load_of_ram hram] at h
    obtain ⟨r', -, h⟩ := bind_eq_ok_iff.mp h
    rw [← (Prod.mk.inj (Except.ok.inj h)).2]
    exact ⟨rfl, rfl⟩
  · cases hd : bus.devices with
    | none => simp [routesToRam, hd] at hram
    | some d =>
        simp only [load, hd] at h
        split_ifs at h with h1 h2 h3
        · rw [← (Prod.mk.inj (Except.ok.inj h)).2, hd]
          exact ⟨rfl, rfl⟩
        · rw [← (Prod.mk.inj (Except.ok.inj h)).2, hd]
          exact ⟨rfl, rfl⟩
        · rw [← (Prod.mk.inj (Except.ok.inj h)).2]
          exact ⟨rfl, rfl⟩
        · simp [routesToRam, h1, h2, h3] at hram

/-- A store leaves memory alone, or is one of the memory unit. -/
lemma store_leaves {e : ReturnException} (h : bus.store addr data sz = .ok (e, bus')) :
    (bus'.mmu = bus.mmu ∨ ∃ e', bus.mmu.store addr data sz = .ok (e', bus'.mmu))
      ∧ bus'.devices.isNone = bus.devices.isNone := by
  by_cases hram : bus.routesToRam addr = true
  · rw [store_of_ram hram] at h
    obtain ⟨⟨e', mmu⟩, hstore, h⟩ := bind_eq_ok_iff.mp h
    rw [← (Prod.mk.inj (Except.ok.inj h)).2]
    exact ⟨Or.inr ⟨e', hstore⟩, rfl⟩
  · cases hd : bus.devices with
    | none => simp [routesToRam, hd] at hram
    | some d =>
        simp only [store, hd] at h
        split_ifs at h with h1 h2 h3
        · rw [← (Prod.mk.inj (Except.ok.inj h)).2]
          exact ⟨Or.inl rfl, rfl⟩
        · rw [← (Prod.mk.inj (Except.ok.inj h)).2]
          exact ⟨Or.inl rfl, rfl⟩
        · rw [← (Prod.mk.inj (Except.ok.inj h)).2]
          exact ⟨Or.inl rfl, rfl⟩
        · simp [routesToRam, h1, h2, h3] at hram

/-- A double word goes to the interruptor and the interrupt controller; the serial port refuses
it. -/
lemma store64_device (hram : bus.routesToRam addr = false) {e : ReturnException}
    (h : bus.store addr data 64 = .ok (e, bus')) :
    ∃ d, bus.devices = some d ∧ bus' = { bus with devices := some (d.stored64 addr data) } := by
  cases hd : bus.devices with
  | none => simp [routesToRam, hd] at hram
  | some d =>
      refine ⟨d, rfl, ?_⟩
      have hsize : (64 : ℕ) ≠ 8 := by decide
      simp only [store, hd, CLINT.store, PLIC.store, UART.store, if_neg hsize, if_true] at h
      simp only [Devices.stored64]
      split_ifs at h ⊢ with h1 h2 h3
      · exact (Prod.mk.inj (Except.ok.inj h)).2.symm
      · exact (Prod.mk.inj (Except.ok.inj h)).2.symm
      · exact (Prod.mk.inj (Except.ok.inj h)).2.symm
      · simp [routesToRam, hd, h1, h2, h3] at hram

end Bus

namespace VEmu

variable {host : Host} {s s' : VEmu}

/-! ## Traps -/

/-- A trap changes the control registers, the mode and the program counter. -/
lemma trap_frame {build : Build} {e : ReturnException} (h : s.trap build e = .ok s') :
    ∃ csrs mode pc, s' = { s with csrs := csrs, mode := mode, pc := pc } := by
  unfold trap at h
  split_ifs at h with hb
  · exact ⟨s.csrs, s.mode, s.pc, (Except.ok.inj h).symm⟩
  · obtain ⟨doDeleg, -, h⟩ := bind_eq_ok_iff.mp h
    split_ifs at h
    · exact ⟨_, _, _, (Except.ok.inj h).symm⟩
    · exact ⟨_, _, _, (Except.ok.inj h).symm⟩

lemma afterwards_frame {build : Build} {e : ReturnException} (h : s.afterwards build e = .ok s') :
    ∃ csrs mode pc, s' = { s with csrs := csrs, mode := mode, pc := pc } := by
  unfold afterwards at h
  by_cases he : e = .NormalExecutionReturn
  · rw [if_pos he] at h
    exact ⟨s.csrs, s.mode, s.pc, (Except.ok.inj h).symm⟩
  · rw [if_neg he] at h
    obtain ⟨s₁, h₁, h⟩ := bind_eq_ok_iff.mp h
    split_ifs at h
    obtain rfl := Except.ok.inj h
    exact trap_frame h₁

@[simp] lemma afterwards_normal (build : Build) (s : VEmu) :
    s.afterwards build .NormalExecutionReturn = .ok s := rfl

/-! ## Interrupts -/

/-- **Every interrupt ends the process.** -/
lemma takeInterrupt_eq (s : VEmu) (i : Interrupt) : s.takeInterrupt i = .error .badShift := by
  have hcause : ¬ ((1 <<< 63 ||| i.code : U64).toNat < 64) := by
    cases i <;> decide
  simp only [takeInterrupt, delegated, if_neg hcause, error_bind]

/-- The serial port is polled only where there are devices, and RAM is left alone. -/
lemma pollUart_frame (h : s.pollUart = .ok s') :
    s.bus.devices.isNone = false ∧ ∃ csrs d, s' =
      { s with csrs := csrs, bus := { s.bus with devices := some d } } := by
  obtain ⟨⟨irq, bus⟩, hirq, h⟩ := bind_eq_ok_iff.mp h
  unfold Bus.uartIsInterrupting at hirq
  cases hd : s.bus.devices with
  | none => simp [hd] at hirq
  | some d =>
      simp only [hd, Except.ok.injEq, Prod.mk.injEq] at hirq
      obtain ⟨-, rfl⟩ := hirq
      refine ⟨rfl, ?_⟩
      cases irq with
      | false => exact ⟨_, _, (Except.ok.inj h).symm⟩
      | true => exact ⟨_, _, (Except.ok.inj h).symm⟩

lemma checkPendingInterrupt_frame {i : Interrupt} (h : s.checkPendingInterrupt = .ok (i, s')) :
    ∃ csrs devices, devices.isNone = s.bus.devices.isNone
      ∧ s' = { s with csrs := csrs, bus := { s.bus with devices := devices } } := by
  unfold checkPendingInterrupt at h
  split_ifs at h with hoff
  · simp only [pure_eq_ok, Except.ok.injEq, Prod.mk.injEq] at h
    exact ⟨s.csrs, s.bus.devices, rfl, h.2.symm⟩
  · obtain ⟨s₁, h₁, h⟩ := bind_eq_ok_iff.mp h
    obtain ⟨hsome, csrs, d, rfl⟩ := pollUart_frame h₁
    dsimp only at h
    split at h
    · simp only [pure_eq_ok, Except.ok.injEq, Prod.mk.injEq] at h
      exact ⟨_, some d, by simp [hsome], h.2.symm⟩
    · simp only [pure_eq_ok, Except.ok.injEq, Prod.mk.injEq] at h
      exact ⟨_, some d, by simp [hsome], h.2.symm⟩

/-- A round goes past its interrupts only if there was none. -/
lemma poll_frame (h : s.poll host = .ok s') :
    ∃ csrs devices, devices.isNone = s.bus.devices.isNone
      ∧ s' = { s with csrs := csrs, bus := { s.bus with devices := devices } } := by
  unfold poll at h
  split_ifs at h with hb
  · obtain rfl := Except.ok.inj h
    exact ⟨s.csrs, s.bus.devices, rfl, rfl⟩
  · obtain ⟨⟨i, s₁⟩, h₁, h⟩ := bind_eq_ok_iff.mp h
    dsimp only at h
    split_ifs at h with hi
    · obtain rfl := Except.ok.inj h
      exact checkPendingInterrupt_frame h₁
    · rw [takeInterrupt_eq] at h
      cases h

/-! ## Fetching, storing and decoding -/

lemma fetch_frame {r : U32 × ReturnException} (h : s.fetch host = .ok (r, s')) : s' = s := by
  unfold fetch at h
  split_ifs at h with hb
  · obtain ⟨⟨⟨w, exp⟩, s₁⟩, h₁, h⟩ := bind_eq_ok_iff.mp h
    obtain ⟨⟨r', bus⟩, hbus, h₁⟩ := bind_eq_ok_iff.mp h₁
    obtain rfl := Bus.load_frame (by decide) hbus
    simp only [pure_eq_ok, Except.ok.injEq, Prod.mk.injEq] at h h₁
    rw [← h.2, ← h₁.2]
  · obtain ⟨r', -, h⟩ := bind_eq_ok_iff.mp h
    simp only [pure_eq_ok, Except.ok.injEq, Prod.mk.injEq] at h
    exact h.2.symm

lemma store_frame {addr data : U64} {sz : ℕ} {e : ReturnException}
    (h : s.store addr data sz = .ok (e, s')) :
    ∃ bus, s.bus.store addr data sz = .ok (e, bus) ∧ s' = { s with bus := bus } := by
  obtain ⟨⟨e', bus⟩, hstore, h⟩ := bind_eq_ok_iff.mp h
  obtain ⟨rfl, rfl⟩ := Prod.mk.inj (Except.ok.inj h)
  exact ⟨bus, hstore, rfl⟩

lemma decodeInto_frame {w : U32} (h : s.decodeInto w = .ok s') :
    ∃ ins, (s.decoder.decode w).1 = .ok ins
      ∧ s' = { s with hexInstr := w, currInstr := ins, decoder := (s.decoder.decode w).2 } := by
  obtain ⟨ins, hins, h⟩ := bind_eq_ok_iff.mp h
  exact ⟨ins, hins, (Except.ok.inj h).symm⟩

/-- **What a round does before it calls the handler**: no interrupt is taken, the fetched word is
decoded, and the handler table is the one of the state before. -/
lemma executeWith_cases {methods : IName → Handler} {exp : ReturnException}
    (h : executeWith methods host s = .ok (exp, s')) :
    ∃ w exp₀ csrs mode pc ins,
      s.fetch host = .ok ((w, exp₀), s)
        ∧ s.afterwards host.build exp₀ = .ok { s with csrs := csrs, mode := mode, pc := pc }
        ∧ (s.decoder.decode w).1 = .ok ins
        ∧ ins.name ∈ s.instFuncs
        ∧ methods ins.name
            { s with
              csrs := csrs, mode := mode, pc := pc, hexInstr := w, currInstr := ins
              decoder := (s.decoder.decode w).2 } = .ok (exp, s') := by
  rw [executeWith, bind_eq_ok_iff] at h
  obtain ⟨⟨⟨w, exp₀⟩, s₁⟩, h₁, h⟩ := h
  obtain rfl := fetch_frame h₁
  dsimp only at h
  rw [bind_eq_ok_iff] at h
  obtain ⟨s₂, h₂, h⟩ := h
  obtain ⟨csrs, mode, pc, rfl⟩ := afterwards_frame h₂
  rw [bind_eq_ok_iff] at h
  obtain ⟨s₃, h₃, h⟩ := h
  obtain ⟨ins, hins, rfl⟩ := decodeInto_frame h₃
  unfold dispatchWith at h
  split_ifs at h with hmem
  exact ⟨w, exp₀, csrs, mode, pc, ins, h₁, h₂, hins, hmem, h⟩

/-- **A round that goes on** called the handler of the word it decoded, and did nothing besides but
for the interrupts and the trap. -/
lemma iterateWith_cases {methods : IName → Handler}
    (h : iterateWith methods host s = .ok (.next s')) :
    s.hasExited = false ∧ ∃ csrs mode pc devices w ins exp t csrs' mode' pc',
      devices.isNone = s.bus.devices.isNone
        ∧ methods ins.name
            { s with
              csrs := csrs, mode := mode, pc := pc, bus := { s.bus with devices := devices }
              hexInstr := w, currInstr := ins, decoder := (s.decoder.decode w).2 } = .ok (exp, t)
        ∧ s' = { t with csrs := csrs', mode := mode', pc := pc' } := by
  unfold iterateWith at h
  split_ifs at h with hexit
  · cases h
  · obtain ⟨s₁, hpoll, h⟩ := bind_eq_ok_iff.mp h
    obtain ⟨csrs, devices, hdev, rfl⟩ := poll_frame hpoll
    split_ifs at h with htest
    · cases h
    · obtain ⟨⟨exp, t⟩, hexecute, h⟩ := bind_eq_ok_iff.mp h
      obtain ⟨s₃, hafter, h⟩ := bind_eq_ok_iff.mp h
      obtain ⟨csrs'', mode'', pc'', rfl⟩ := afterwards_frame hafter
      obtain rfl := Turn.next.inj (Except.ok.inj h)
      obtain ⟨w, exp₀, csrs', mode', pc', ins, -, -, -, -, hhandler⟩ :=
        executeWith_cases hexecute
      exact ⟨by simpa using hexit, csrs', mode', pc', devices, w, ins, exp, t, csrs'', mode'', _,
        hdev, hhandler, rfl⟩

end VEmu

end Vemu
