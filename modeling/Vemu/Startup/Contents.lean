import Vemu.Startup.Layout

/-!
# What the guest sees of a process

A word on the stack and a byte of a string, in RAM or in a window of the devices.  A device takes
double words and keeps them in its registers only; the serial port takes none, and shows bytes of
its own.  Strings are written to RAM past the bus, and read over it.

So a word that was pushed is seen exactly if it is outside the windows, or in a register, or zero
and not in the serial port (`sees_word_iff`); a byte of a string exactly if it is outside the
windows, or happens to be what the serial port holds there (`sees_byte_iff`).
-/

namespace Vemu

open Fallible Loop

/-! ## Registers of the devices -/

/-- The address of a register. -/
def IsRegister (a : U64) : Prop :=
  a = clintMtimecmp ∨ a = clintMtime ∨ a = plicPending ∨ a = plicSenable ∨ a = plicSpriority
    ∨ a = plicSclaim

instance : DecidablePred IsRegister := fun _ => inferInstanceAs (Decidable (_ ∨ _))

/-- A window that ends before another one begins. -/
lemma Bus.inWindow_eq_false {base size base' size' a : U64} (hle : (base + size).toNat ≤ base'.toNat)
    (h : inWindow base size a = true) : inWindow base' size' a = false := by
  simp only [inWindow, Bool.and_eq_true, decide_eq_true_eq, Bool.and_eq_false_iff,
    decide_eq_false_iff_not, BitVec.le_def, BitVec.lt_def] at h ⊢
  omega

/-- A double word that is stored to a register is loaded again, elsewhere zero is. -/
lemma CLINT.load64_store64 (d : CLINT) {a : U64} (v : U64)
    (h : Bus.inWindow clintBase clintSize a = true) :
    (d.store64 a v).load64 a = if IsRegister a then v else 0 := by
  have hne : clintMtime ≠ clintMtimecmp := by decide
  by_cases hcmp : a = clintMtimecmp
  · subst hcmp
    simp [IsRegister, store64, load64]
  · by_cases htime : a = clintMtime
    · subst htime
      simp [IsRegister, store64, load64, hne]
    · have hreg : ¬ IsRegister a := by
        rintro (rfl | rfl | rfl | rfl | rfl | rfl)
        · exact hcmp rfl
        · exact htime rfl
        all_goals cases h
      simp [hreg, load64, hcmp, htime]

lemma CLINT.load64_store64_of_ne (d : CLINT) {a b : U64} (v : U64) (h : a ≠ b) :
    (d.store64 b v).load64 a = d.load64 a := by
  unfold store64 load64
  split_ifs <;> simp_all

lemma PLIC.load64_store64 (d : PLIC) {a : U64} (v : U64)
    (h : Bus.inWindow plicBase plicSize a = true) :
    (d.store64 a v).load64 a = if IsRegister a then v else 0 := by
  by_cases hreg : a = plicPending ∨ a = plicSenable ∨ a = plicSpriority ∨ a = plicSclaim
  · have hregister : IsRegister a := Or.inr (Or.inr hreg)
    rw [if_pos hregister]
    have hne : plicSenable ≠ plicPending ∧ plicSpriority ≠ plicPending ∧ plicSclaim ≠ plicPending
        ∧ plicSpriority ≠ plicSenable ∧ plicSclaim ≠ plicSenable ∧ plicSclaim ≠ plicSpriority := by
      decide
    rcases hreg with rfl | rfl | rfl | rfl
    all_goals simp [store64, load64, hne]
  · simp only [not_or] at hreg
    have hnone : ¬ IsRegister a := by
      rintro (rfl | rfl | hreg')
      · cases h
      · cases h
      · simp [hreg] at hreg'
    simp [hnone, load64, hreg]

lemma PLIC.load64_store64_of_ne (d : PLIC) {a b : U64} (v : U64) (h : a ≠ b) :
    (d.store64 b v).load64 a = d.load64 a := by
  unfold store64 load64
  split_ifs <;> simp_all

/-- Reading a byte clears the receive bit at most, and that is somewhere else. -/
lemma UART.load8_value (d : UART) (a : U64) :
    (d.load8 a).1 = (d.uartMem (UART.index a)).setWidth 64 := by
  unfold load8
  by_cases h : a = uartRhr
  · subst h
    have hne : UART.index uartRhr ≠ UART.index uartLsr := by decide
    simp [hne]
  · simp [h]

/-! ## A word on the stack -/

/-- A word that was pushed, as the devices hold it or RAM does. -/
structure WordAt (bus : Bus) (a v : U64) : Prop where
  ram : bus.routesToRam a = true → ByteMemory.load bus.mmu.ram.data a.toNat 8 = v.toNat
    ∧ ∀ k < 8, bus.mmu.bytePermission.data (a.toNat + k) = permRead ||| permWrite
  clint : ∀ d, bus.devices = some d → Bus.inWindow clintBase clintSize a = true →
    d.clint.load64 a = if IsRegister a then v else 0
  plic : ∀ d, bus.devices = some d → Bus.inWindow plicBase plicSize a = true →
    d.plic.load64 a = if IsRegister a then v else 0

/-- Whether the guest sees a word that was pushed. -/
def ShowsWord (noDevices : Bool) (a v : U64) : Prop :=
  noDevices = true ∨ Bus.OutsideDevices a ∨ IsRegister a
    ∨ v = 0 ∧ Bus.inWindow uartBase uartSize a = false

/-- Whether the guest sees a byte of a string that is written where the permissions are `p`. -/
def ShowsByte (noDevices : Bool) (a : U64) (p b : U8) : Prop :=
  (noDevices = true ∨ Bus.OutsideDevices a) ∧ p &&& (permRaw ||| permRead) ≠ 0
    ∨ noDevices = false ∧ Bus.inWindow uartBase uartSize a = true
      ∧ (UART.new false).uartMem (UART.index a) = b

/-- The guest loads the number, and the load reports nothing. -/
def VEmu.Sees (s : VEmu) (a : U64) (sz : ℕ) (v : U64) : Prop :=
  ∃ s', s.load a sz = .ok ((v, .NormalExecutionReturn), s')

namespace VEmu

variable {s : VEmu} {a v : U64}

lemma sees_of_bus {sz : ℕ} {r : U64 × ReturnException} {bus : Bus}
    (h : s.bus.load a sz = .ok (r, bus)) : s.Sees a sz v ↔ r = (v, .NormalExecutionReturn) := by
  have hload : s.load a sz = .ok (r, { s with bus := bus }) := by
    rw [load, h]
    rfl
  constructor
  · rintro ⟨s', hs'⟩
    rw [hload] at hs'
    exact (Prod.mk.inj (Except.ok.inj hs')).1
  · rintro rfl
    exact ⟨_, hload⟩

/-- The guest sees what RAM holds, if it may be read. -/
lemma sees_ram {sz n : ℕ} (hm : s.bus.mmu.Backed) (hsz : MMU.sizeBytes sz = some n)
    (hfit : s.bus.mmu.Fits a n) (hram : s.bus.routesToRam a = true)
    (hvalue : ByteMemory.load s.bus.mmu.ram.data a.toNat n = v.toNat) :
    s.Sees a sz v ↔ s.bus.mmu.readOutcome a n = .NormalExecutionReturn := by
  have hload := MMU.load_of_fits hm hsz hfit
  have hv : MMU.assemble (s.bus.mmu.bytesAt a n) = v := by
    apply BitVec.eq_of_toNat_eq
    rw [MMU.toNat_assemble (by rw [MMU.length_bytesAt]; exact (MMU.sizeBytes_le hsz).2), ← hvalue]
    rfl
  have hbus : s.bus.load a sz = .ok ((v, s.bus.mmu.readOutcome a n), s.bus) := by
    rw [Bus.load_of_ram hram, hload, ok_bind, hv]
  rw [sees_of_bus hbus, Prod.mk.injEq]
  exact and_iff_right rfl

/-- What the guest loads from a device: the serial port refuses double words. -/
lemma load64_device {d : Devices} (hd : s.bus.devices = some d) (hram : s.bus.routesToRam a = false) :
    ∃ bus, s.bus.load a 64 = .ok
      (if Bus.inWindow clintBase clintSize a then (d.clint.load64 a, .NormalExecutionReturn)
        else if Bus.inWindow plicBase plicSize a then (d.plic.load64 a, .NormalExecutionReturn)
        else (0, .LoadAccessFault), bus) := by
  simp only [Bus.load, hd]
  split_ifs with hclint hplic huart
  · exact ⟨_, rfl⟩
  · exact ⟨_, rfl⟩
  · exact ⟨_, rfl⟩
  · simp [Bus.routesToRam, hd, hclint, hplic, huart] at hram

/-- The others refuse bytes. -/
lemma load8_device {d : Devices} (hd : s.bus.devices = some d) (hram : s.bus.routesToRam a = false) :
    ∃ bus, s.bus.load a 8 = .ok
      (if Bus.inWindow uartBase uartSize a then
          ((d.uart.uartMem (UART.index a)).setWidth 64, .NormalExecutionReturn)
        else (0, .LoadAccessFault), bus) := by
  simp only [Bus.load, hd]
  split_ifs with hclint huart hplic huart huart
  · rw [Bus.inWindow_eq_false (by decide) hclint] at huart
    cases huart
  · exact ⟨_, rfl⟩
  · rw [Bus.inWindow_eq_false (by decide) hplic] at huart
    cases huart
  · exact ⟨_, rfl⟩
  · rw [← UART.load8_value d.uart a]
    exact ⟨_, rfl⟩
  · simp [Bus.routesToRam, hd, hclint, hplic, huart] at hram

/-- What RAM answers is outside the windows. -/
lemma outside_of_routesToRam (hram : s.bus.routesToRam a = true) :
    s.bus.devices.isNone = true ∨ Bus.OutsideDevices a := by
  cases hd : s.bus.devices with
  | none => exact Or.inl rfl
  | some d => exact Or.inr ((Bus.routesToRam_iff hd).mp hram)

/-- What RAM does not answer is in a window, and there are devices. -/
lemma exists_devices_of_not_routesToRam (hram : s.bus.routesToRam a = false) :
    ∃ d, s.bus.devices = some d ∧ ¬ Bus.OutsideDevices a := by
  cases hd : s.bus.devices with
  | none => simp [Bus.routesToRam, hd] at hram
  | some d =>
      refine ⟨d, rfl, fun hout => ?_⟩
      rw [(Bus.routesToRam_iff hd).mpr hout] at hram
      cases hram

/-- A load that reports nothing shows its value. -/
lemma normal_eq_iff {r : U64} :
    (r, ReturnException.NormalExecutionReturn) = (v, .NormalExecutionReturn) ↔ r = v := by
  rw [Prod.mk.injEq]
  exact and_iff_left rfl

/-- A register, or a zero. -/
lemma showsWord_iff {r : U64} (hout : ¬ Bus.OutsideDevices a)
    (huart : Bus.inWindow uartBase uartSize a = false) (hr : r = if IsRegister a then v else 0) :
    (r, ReturnException.NormalExecutionReturn) = (v, .NormalExecutionReturn)
      ↔ ShowsWord false a v := by
  rw [normal_eq_iff, hr]
  split_ifs with hreg
  · exact iff_of_true rfl (Or.inr (Or.inr (Or.inl hreg)))
  · refine ⟨fun hv => Or.inr (Or.inr (Or.inr ⟨hv.symm, huart⟩)), ?_⟩
    rintro (hnone | hout' | hreg' | ⟨hv, -⟩)
    · cases hnone
    · exact absurd hout' hout
    · exact absurd hreg' hreg
    · exact hv.symm

/-- The serial port has none of the registers. -/
lemma not_showsWord (huart : Bus.inWindow uartBase uartSize a = true) : ¬ ShowsWord false a v := by
  rintro (hnone | ⟨-, -, hout⟩ | hreg | ⟨-, hno⟩)
  · cases hnone
  · rw [hout] at huart
    cases huart
  · rcases hreg with rfl | rfl | rfl | rfl | rfl | rfl
    all_goals cases huart
  · rw [hno] at huart
    cases huart

/-- **A word that was pushed**: the guest sees it, or it is lost in a window. -/
theorem sees_word_iff (hm : s.bus.mmu.Backed) (hfit : s.bus.mmu.Fits a 8) (h : WordAt s.bus a v) :
    s.Sees a 64 v ↔ ShowsWord s.bus.devices.isNone a v := by
  cases hram : s.bus.routesToRam a with
  | true =>
      obtain ⟨hvalue, hperm⟩ := h.ram hram
      refine iff_of_true ((sees_ram hm rfl hfit hram hvalue).mpr ?_) ?_
      · refine MMU.readOutcome_normal_iff.mpr ⟨fun k hk => ?_, fun k hk => ?_⟩
        · rw [hperm k hk]
          decide
        · rw [hperm k hk]
          decide
      · exact (outside_of_routesToRam hram).imp_right Or.inl
  | false =>
      obtain ⟨d, hd, hout⟩ := exists_devices_of_not_routesToRam hram
      obtain ⟨bus, hload⟩ := load64_device hd hram
      rw [sees_of_bus hload, hd]
      split_ifs with hclint hplic
      · exact showsWord_iff hout (Bus.inWindow_eq_false (by decide) hclint) (h.clint d hd hclint)
      · exact showsWord_iff hout (Bus.inWindow_eq_false (by decide) hplic) (h.plic d hd hplic)
      · have huart : Bus.inWindow uartBase uartSize a = true := by
          simpa [Bus.OutsideDevices, hclint, hplic] using hout
        exact iff_of_false (by simp) (not_showsWord huart)

/-! ## A byte of a string -/

/-- What can be read after it was written. -/
lemma readable_initialised (p : U8) :
    MMU.initialised p &&& permRead ≠ 0 ∧ MMU.initialised p &&& permRaw = 0
      ↔ p &&& (permRaw ||| permRead) ≠ 0 := by
  revert p
  decide

/-- Outside the windows the permissions decide. -/
lemma showsByte_outside_iff {noDevices : Bool} {p b : U8}
    (hout : noDevices = true ∨ Bus.OutsideDevices a) :
    ShowsByte noDevices a p b ↔ p &&& (permRaw ||| permRead) ≠ 0 := by
  refine ⟨?_, fun hp => Or.inl ⟨hout, hp⟩⟩
  rintro (⟨-, hp⟩ | ⟨hsome, hin, -⟩)
  · exact hp
  · rcases hout with hnone | ⟨-, -, hnot⟩
    · rw [hnone] at hsome
      cases hsome
    · rw [hnot] at hin
      cases hin

/-- In a window the serial port does. -/
lemma showsByte_inside_iff {p b : U8} (hout : ¬ Bus.OutsideDevices a) :
    ShowsByte false a p b ↔ Bus.inWindow uartBase uartSize a = true
      ∧ (UART.new false).uartMem (UART.index a) = b := by
  refine ⟨?_, fun ⟨hin, hb⟩ => Or.inr ⟨rfl, hin, hb⟩⟩
  rintro (⟨hnone | hout', -⟩ | ⟨-, hin, hb⟩)
  · cases hnone
  · exact absurd hout' hout
  · exact ⟨hin, hb⟩

/-- **A byte of a string**: the guest sees it if the permissions of RAM let it, or if the serial
port holds the same. -/
theorem sees_byte_iff {b p : U8} (hm : s.bus.mmu.Backed) (hfit : s.bus.mmu.Fits a 1)
    (hbyte : s.bus.mmu.ram.data a.toNat = b)
    (hperm : s.bus.mmu.bytePermission.data a.toNat = MMU.initialised p)
    (huart : ∀ d, s.bus.devices = some d → d.uart.uartMem = (UART.new false).uartMem) :
    s.Sees a 8 (b.setWidth 64) ↔ ShowsByte s.bus.devices.isNone a p b := by
  cases hram : s.bus.routesToRam a with
  | true =>
      have hvalue : ByteMemory.load s.bus.mmu.ram.data a.toNat 1 = (b.setWidth 64 : U64).toNat := by
        rw [ByteMemory.load_succ, ByteMemory.load_zero, hbyte, BitVec.toNat_setWidth]
        have hb := b.isLt
        omega
      rw [showsByte_outside_iff (outside_of_routesToRam hram), sees_ram hm rfl hfit hram hvalue,
        MMU.readOutcome_normal_iff, ← readable_initialised, ← hperm]
      simp
  | false =>
      obtain ⟨d, hd, hout⟩ := exists_devices_of_not_routesToRam hram
      obtain ⟨bus, hload⟩ := load8_device hd hram
      rw [sees_of_bus hload, hd, Option.isNone_some, showsByte_inside_iff hout]
      by_cases hin : Bus.inWindow uartBase uartSize a = true
      · have hinj : ∀ x : U8, (x.setWidth 64 : U64) = b.setWidth 64 → x = b := fun x h => by
          simpa using congrArg (BitVec.setWidth 8) h
        rw [if_pos hin, huart d hd, normal_eq_iff]
        exact ⟨fun h => ⟨hin, hinj _ h⟩, fun h => by rw [h.2]⟩
      · rw [if_neg hin]
        exact iff_of_false (by simp) fun h => hin h.1

end VEmu

end Vemu
