import Vemu.Startup.Contents

/-!
# The registers of the devices

The interruptor and the interrupt controller are cells of 64 bits.  Whatever goes over the bus, each
holds what was last stored to it as a double word: accesses of other sizes are refused, and neither
RAM nor the serial port reaches into their windows.  So a double word in one of the windows reads as
it would in an array of cells (**`Bus.reads_cells`**).
-/

namespace Vemu

open Fallible

/-! ## Two devices -/

lemma CLINT.load64_of_not_register (d : CLINT) {a : U64} (h : ¬ IsRegister a) : d.load64 a = 0 := by
  simp only [IsRegister, not_or] at h
  simp [load64, h]

lemma PLIC.load64_of_not_register (d : PLIC) {a : U64} (h : ¬ IsRegister a) : d.load64 a = 0 := by
  simp only [IsRegister, not_or] at h
  simp [load64, h]

namespace Bus

variable {bus bus' : Bus} {d : Devices} {addr : U64} {cells : U64 → U64}

/-! ## One array of cells -/

/-- The two windows. -/
def inDevice (addr : U64) : Bool := inWindow clintBase clintSize addr || inWindow plicBase plicSize addr

/-- The registers in the windows, and zero between them. -/
def cell (d : Devices) (addr : U64) : U64 :=
  if inWindow clintBase clintSize addr then d.clint.load64 addr else d.plic.load64 addr

inductive Access
  | load (addr : U64) (sz : ℕ)
  | store (addr data : U64) (sz : ℕ)
  deriving DecidableEq, Repr

def perform (bus : Bus) : Access → Except Fault Bus
  | .load addr sz => bus.load addr sz >>= fun r => .ok r.2
  | .store addr data sz => bus.store addr data sz >>= fun r => .ok r.2

/-- An array of cells after an access: a double word for a register is kept. -/
def written (cells : U64 → U64) : Access → U64 → U64
  | .load _ _ => cells
  | .store addr data sz =>
      if sz = 64 ∧ IsRegister addr then Function.update cells addr data else cells

lemma inDevice_of_isRegister (h : IsRegister addr) : inDevice addr = true := by
  rcases h with rfl | rfl | rfl | rfl | rfl | rfl <;> decide

/-- What the two devices do with a double word. -/
lemma cell_store (haddr : inDevice addr = true) (data : U64) :
    cell (d.stored64 addr data) = written (cell d) (.store addr data 64) := by
  have hwritten : ∀ a, written (cell d) (.store addr data 64) a
      = if a = addr then if IsRegister addr then data else 0 else cell d a := by
    intro a
    by_cases ha : a = addr
    · by_cases hreg : IsRegister addr
      · simp [written, ha, hreg]
      · simp [written, ha, hreg, cell, CLINT.load64_of_not_register, PLIC.load64_of_not_register]
    · by_cases hreg : IsRegister addr
      · simp [written, ha, hreg]
      · simp [written, ha, hreg]
  funext a
  rw [hwritten]
  cases hc : inWindow clintBase clintSize addr with
  | true =>
      have hstored : d.stored64 addr data = { d with clint := d.clint.store64 addr data } :=
        if_pos hc
      rw [hstored]
      by_cases ha : a = addr
      · rw [if_pos ha, ha, cell, if_pos hc, CLINT.load64_store64 _ _ hc]
      · rw [if_neg ha, cell, CLINT.load64_store64_of_ne _ _ ha]
        rfl
  | false =>
      have hp : inWindow plicBase plicSize addr = true := by simpa [inDevice, hc] using haddr
      have hstored : d.stored64 addr data = { d with plic := d.plic.store64 addr data } := by
        rw [Devices.stored64, hc, if_neg (by simp), if_pos hp]
      rw [hstored]
      by_cases ha : a = addr
      · rw [if_pos ha, ha, cell, hc, if_neg (by simp), PLIC.load64_store64 _ _ hp]
      · rw [if_neg ha, cell, PLIC.load64_store64_of_ne _ _ ha]
        rfl

/-- Outside the windows, and at another size, nothing is written. -/
lemma written_store_of_not {data : U64} {sz : ℕ} (h : inDevice addr = true → sz ≠ 64) :
    written cells (.store addr data sz) = cells :=
  if_neg fun hsz => h (inDevice_of_isRegister hsz.2) hsz.1

/-- The serial port may take a byte, the registers stay. -/
lemma load_cells {sz : ℕ} {r : U64 × ReturnException} (hd : bus.devices = some d)
    (h : bus.load addr sz = .ok (r, bus')) :
    ∃ d', bus'.devices = some d' ∧ cell d' = cell d := by
  simp only [load, hd] at h
  split_ifs at h with hclint hplic huart
  · obtain ⟨-, rfl⟩ := Prod.mk.inj (Except.ok.inj h)
    exact ⟨d, hd, rfl⟩
  · obtain ⟨-, rfl⟩ := Prod.mk.inj (Except.ok.inj h)
    exact ⟨d, hd, rfl⟩
  · obtain ⟨-, rfl⟩ := Prod.mk.inj (Except.ok.inj h)
    exact ⟨_, rfl, rfl⟩
  · obtain ⟨r', -, h⟩ := bind_eq_ok_iff.mp h
    obtain ⟨-, rfl⟩ := Prod.mk.inj (Except.ok.inj h)
    exact ⟨d, hd, rfl⟩

lemma store64_cells {data : U64} {e : ReturnException} (hd : bus.devices = some d)
    (hin : inDevice addr = true) (h : bus.store addr data 64 = .ok (e, bus')) :
    ∃ d', bus'.devices = some d' ∧ cell d' = written (cell d) (.store addr data 64) := by
  have hram : bus.routesToRam addr = false := by
    simp only [inDevice] at hin
    simp [routesToRam, hd, hin]
  obtain ⟨d₁, hd₁, rfl⟩ := store64_device hram h
  obtain rfl : d = d₁ := Option.some.inj (hd.symm.trans hd₁)
  exact ⟨_, rfl, cell_store hin data⟩

/-- A store that is not of a double word to a window leaves the registers. -/
lemma store_cells_of_not {data : U64} {sz : ℕ} {e : ReturnException} (hd : bus.devices = some d)
    (hin : inDevice addr = true → sz ≠ 64) (h : bus.store addr data sz = .ok (e, bus')) :
    ∃ d', bus'.devices = some d' ∧ cell d' = cell d := by
  simp only [store, hd] at h
  split_ifs at h with hclint hplic huart
  · simp only [CLINT.store, if_neg (hin (by simp [inDevice, hclint]))] at h
    obtain ⟨-, rfl⟩ := Prod.mk.inj (Except.ok.inj h)
    exact ⟨d, rfl, rfl⟩
  · simp only [PLIC.store, if_neg (hin (by simp [inDevice, hplic]))] at h
    obtain ⟨-, rfl⟩ := Prod.mk.inj (Except.ok.inj h)
    exact ⟨d, rfl, rfl⟩
  · obtain ⟨-, rfl⟩ := Prod.mk.inj (Except.ok.inj h)
    exact ⟨_, rfl, rfl⟩
  · obtain ⟨r, -, h⟩ := bind_eq_ok_iff.mp h
    obtain ⟨-, rfl⟩ := Prod.mk.inj (Except.ok.inj h)
    exact ⟨d, hd, rfl⟩

/-- **A store to a register** changes its cell, and no other access changes any. -/
lemma perform_cells (op : Access) (hd : bus.devices = some d) (h : bus.perform op = .ok bus') :
    ∃ d', bus'.devices = some d' ∧ cell d' = written (cell d) op := by
  cases op with
  | load addr sz =>
      obtain ⟨⟨r, bus₁⟩, hload, h⟩ := bind_eq_ok_iff.mp h
      obtain rfl := Except.ok.inj h
      exact load_cells hd hload
  | store addr data sz =>
      obtain ⟨⟨e, bus₁⟩, hstore, h⟩ := bind_eq_ok_iff.mp h
      obtain rfl := Except.ok.inj h
      by_cases hin : inDevice addr = true ∧ sz = 64
      · obtain ⟨hin, rfl⟩ := hin
        exact store64_cells hd hin hstore
      · rw [written_store_of_not (not_and.mp hin)]
        exact store_cells_of_not hd (not_and.mp hin) hstore

lemma run_cells {ops : List Access} (hd : bus.devices = some d)
    (h : ops.foldlM perform bus = .ok bus') :
    ∃ d', bus'.devices = some d' ∧ cell d' = ops.foldl written (cell d) := by
  induction ops generalizing bus d with
  | nil =>
      obtain rfl := Except.ok.inj h
      exact ⟨d, hd, rfl⟩
  | cons op ops ih =>
      rw [List.foldlM_cons, bind_eq_ok_iff] at h
      obtain ⟨bus₁, hop, h⟩ := h
      obtain ⟨d₁, hd₁, hcell⟩ := perform_cells op hd hop
      rw [List.foldl_cons, ← hcell]
      exact ih hd₁ h

lemma load_cell (hd : bus.devices = some d) (haddr : inDevice addr = true) :
    bus.load addr 64 = .ok ((cell d addr, .NormalExecutionReturn), bus) := by
  simp only [load, hd, cell, CLINT.load, PLIC.load, if_true]
  cases hc : inWindow clintBase clintSize addr with
  | true => rfl
  | false =>
      have hp : inWindow plicBase plicSize addr = true := by simpa [inDevice, hc] using haddr
      simp [hp]

/-- **The devices are an array of cells**, over any run of accesses. -/
theorem reads_cells {build : Build} {memSize : U64} {interrupting : Bool} {ram perm : ℕ → U8}
    (hb : build ≠ .fuzz) (hnew : Bus.new build memSize interrupting ram perm = .ok bus)
    (ops : List Access) (hrun : ops.foldlM perform bus = .ok bus') (haddr : inDevice addr = true) :
    bus'.load addr 64
      = .ok ((ops.foldl written (fun _ => 0) addr, .NormalExecutionReturn), bus') := by
  obtain ⟨mmu, -, hnew⟩ := bind_eq_ok_iff.mp hnew
  obtain rfl := Except.ok.inj hnew
  have hd : (if build = .fuzz then none else some ⟨.new, .new, .new interrupting⟩ : Option Devices)
      = some ⟨.new, .new, .new interrupting⟩ := if_neg hb
  obtain ⟨d', hd', hcell⟩ := run_cells hd hrun
  have hzero : cell ⟨.new, .new, .new interrupting⟩ = fun _ => 0 := by
    funext a
    simp [cell, CLINT.load64, PLIC.load64, CLINT.new, PLIC.new]
  rw [load_cell hd' haddr, hcell, hzero]

/-- The timer, next to another register and an access of another size. -/
theorem reads_cells_timer :
    ∃ bus bus', Bus.new .emu 4096 false (fun _ => 0) (fun _ => 0) = .ok bus
      ∧ [.store clintMtime 5 64, .store plicPending 7 64, .store clintMtime 9 32].foldlM perform bus
        = .ok bus'
      ∧ bus'.load clintMtime 64 = .ok ((5, .NormalExecutionReturn), bus') := by
  obtain ⟨bus, hbus⟩ : ∃ bus, Bus.new .emu 4096 false (fun _ => 0) (fun _ => 0) = .ok bus := ⟨_, rfl⟩
  obtain ⟨bus', hrun⟩ : ∃ bus',
      [.store clintMtime 5 64, .store plicPending 7 64, .store clintMtime 9 32].foldlM perform bus
        = .ok bus' := by
    obtain rfl := Except.ok.inj hbus
    exact ⟨_, rfl⟩
  exact ⟨bus, bus', hbus, hrun, reads_cells (by decide) hbus _ hrun (by decide)⟩

end Bus

end Vemu
