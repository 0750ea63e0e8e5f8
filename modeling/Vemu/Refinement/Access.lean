import Vemu.Invariant
import Vemu.MMU.Words
import Vemu.Riscv.Semantics

/-!
# The emulator's memory accesses and those of a hart

`VEmu.hart` is the hart that an emulator is: its registers, its program counter and its RAM.
An access is *admitted* when the bus gives it to RAM, all its bytes are inside RAM, and the
guest has the permission for each of them.

An admitted access does what the instruction set says (`load_admitted`, `store_admitted`),
unless its last byte is the last byte of RAM: there the range check fails (`load_at_end`,
`store_at_end`).
-/

namespace Vemu

open Fallible Loop Riscv

namespace MMU

variable {m : MMU}

/-- Inside RAM, the bytes from an address on are those at the addresses after it. -/
lemma bytesAt_eq {addr : U64} {n : ℕ} (h : m.Fits addr n) :
    m.bytesAt addr n = (List.range n).map fun k =>
      m.ram.data (addr + BitVec.ofNat 64 k).toNat := by
  apply List.map_congr_left
  intro k hk
  rw [List.mem_range] at hk
  have hsize := m.ramSize.isLt
  unfold Fits at h
  rw [toNat_add_ofNat_of_le (by omega)]

end MMU

namespace VEmu

/-- The hart that an emulator is. -/
def hart (s : VEmu) : Hart where
  x := s.iregs.data
  pc := s.pc
  mem := fun a => s.bus.mmu.ram.data a.toNat

/-- The permission byte at an offset from an address. -/
def permAt (s : VEmu) (addr : U64) (k : ℕ) : U8 := s.bus.mmu.bytePermission.data (addr.toNat + k)

/-- The guest may make the access. -/
structure Admitted (s : VEmu) (acc : Access) : Prop where
  toRam : s.bus.routesToRam acc.addr = true
  inside : acc.addr.toNat + acc.bytes ≤ s.bus.mmu.ramSize.toNat
  permitted : ∀ k < acc.bytes,
    if acc.writes then s.permAt acc.addr k &&& permWrite ≠ 0
    else s.permAt acc.addr k &&& permRead ≠ 0 ∧ s.permAt acc.addr k &&& permRaw = 0

/-- The last byte of the access is the last byte of RAM. -/
def AtRamEnd (s : VEmu) (acc : Access) : Prop :=
  acc.addr.toNat + acc.bytes = s.bus.mmu.ramSize.toNat

instance (s : VEmu) (acc : Access) : Decidable (s.AtRamEnd acc) :=
  inferInstanceAs (Decidable (_ = _))

section Accesses

variable {s : VEmu} {addr data : U64} {sz n : ℕ}

lemma Admitted.fits {acc : Access} (h : s.Admitted acc) (hend : ¬ s.AtRamEnd acc) :
    s.bus.mmu.Fits acc.addr acc.bytes := lt_of_le_of_ne h.inside hend

/-- An access to the end of RAM is refused by the range check. -/
lemma not_fits_at_end {acc : Access} (hend : s.AtRamEnd acc) :
    ¬ s.bus.mmu.Fits acc.addr acc.bytes ∧ ¬ s.bus.mmu.Wraps acc.addr acc.bytes := by
  have hsize := s.bus.mmu.ramSize.isLt
  unfold AtRamEnd at hend
  exact ⟨fun h => by unfold MMU.Fits at h; omega, fun h => by have := h.1; omega⟩

/-- **An admitted load reads the little-endian number.** -/
theorem load_admitted (hm : s.bus.mmu.Backed) (hsz : MMU.sizeBytes sz = some n)
    (h : s.Admitted ⟨addr, n, false⟩) (hend : ¬ s.AtRamEnd ⟨addr, n, false⟩) :
    s.load addr sz = .ok ((BitVec.ofNat 64 (s.hart.read addr n), .NormalExecutionReturn), s) := by
  have hfit : s.bus.mmu.Fits addr n := h.fits hend
  have hperm := h.permitted
  simp only [Bool.false_eq_true, if_false] at hperm
  have hout : s.bus.mmu.readOutcome addr n = .NormalExecutionReturn :=
    MMU.readOutcome_normal_iff.mpr ⟨fun k hk => (hperm k hk).1, fun k hk => (hperm k hk).2⟩
  have hval : MMU.assemble (s.bus.mmu.bytesAt addr n) = BitVec.ofNat 64 (s.hart.read addr n) := by
    apply BitVec.eq_of_toNat_eq
    have hlen : (s.bus.mmu.bytesAt addr n).length ≤ 8 := by
      rw [MMU.length_bytesAt]
      exact (MMU.sizeBytes_le hsz).2
    have hassemble := MMU.toNat_assemble hlen
    have hlt := (MMU.assemble (s.bus.mmu.bytesAt addr n)).isLt
    rw [BitVec.toNat_ofNat, Hart.read, hassemble, MMU.bytesAt_eq hfit]
    rw [hassemble, MMU.bytesAt_eq hfit] at hlt
    exact (Nat.mod_eq_of_lt hlt).symm
  rw [load, Bus.load_of_ram h.toRam, MMU.load_of_fits hm hsz hfit, hval, hout]
  rfl

lemma load_at_end (hsz : MMU.sizeBytes sz = some n) (h : s.Admitted ⟨addr, n, false⟩)
    (hend : s.AtRamEnd ⟨addr, n, false⟩) : s.load addr sz = .error .assertFailed := by
  obtain ⟨hf, hw⟩ := not_fits_at_end hend
  rw [load, Bus.load_of_ram h.toRam, MMU.load_of_not hsz hf hw]
  rfl

/-- RAM after a store, as the instruction set has it. -/
lemma stored_eq (hfit : s.bus.mmu.Fits addr n) {v : U64}
    (hdata : ∀ k < n, (data >>> (8 * k)).setWidth 8 = v.extractLsb' (8 * k) 8) :
    (fun b : U64 => overlay s.bus.mmu.ram.data addr.toNat (MMU.split n data) b.toNat)
      = s.hart.stored addr n v := by
  funext b
  have hsize := s.bus.mmu.ramSize.isLt
  have hb := b.isLt
  have haddr := addr.isLt
  unfold MMU.Fits at hfit
  have hsub : (b - addr).toNat = (2 ^ 64 - addr.toNat + b.toNat) % 2 ^ 64 := BitVec.toNat_sub b addr
  rw [Hart.stored]
  by_cases hin : addr.toNat ≤ b.toNat ∧ b.toNat < addr.toNat + n
  · have hoff : (b - addr).toNat = b.toNat - addr.toNat := by omega
    have hlt : b.toNat - addr.toNat < n := by omega
    have hlen : b.toNat - addr.toNat < (MMU.split n data).length := by
      rw [MMU.length_split]
      exact hlt
    rw [overlay_of_mem hin.1 hlen, MMU.getElem_split data hlen, hoff, if_pos hlt,
      hdata _ hlt]
  · have hoff : ¬ (b - addr).toNat < n := by omega
    rw [overlay_of_not_mem (by rw [MMU.length_split]; exact hin), if_neg hoff]
    rfl

/-- **An admitted store writes the bytes of the number, and changes nothing else.** -/
theorem store_admitted (hm : s.bus.mmu.Backed) (hsz : MMU.sizeBytes sz = some n)
    (h : s.Admitted ⟨addr, n, true⟩) (hend : ¬ s.AtRamEnd ⟨addr, n, true⟩) {v : U64}
    (hdata : ∀ k < n, (data >>> (8 * k)).setWidth 8 = v.extractLsb' (8 * k) 8) :
    ∃ s', s.store addr data sz = .ok (.NormalExecutionReturn, s')
      ∧ s'.hart = { s.hart with mem := s.hart.stored addr n v } := by
  have hfit : s.bus.mmu.Fits addr n := h.fits hend
  have hperm := h.permitted
  simp only [if_true] at hperm
  have hwritable : s.bus.mmu.Writable addr n := hperm
  refine ⟨s.withMmu ((s.bus.mmu.written addr (MMU.split n data)).mark addr), ?_, ?_⟩
  · rw [store, Bus.store_of_ram h.toRam, Bus.storeRam, MMU.store_of_fits hm hsz hfit,
      if_pos hwritable]
    rfl
  · rw [← stored_eq hfit hdata]
    rfl

lemma store_at_end (hsz : MMU.sizeBytes sz = some n) (h : s.Admitted ⟨addr, n, true⟩)
    (hend : s.AtRamEnd ⟨addr, n, true⟩) : s.store addr data sz = .error .assertFailed := by
  obtain ⟨hf, hw⟩ := not_fits_at_end hend
  rw [store, Bus.store_of_ram h.toRam, Bus.storeRam, MMU.store_of_not hsz hf hw]
  rfl

end Accesses

end VEmu

end Vemu
