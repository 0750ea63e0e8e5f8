import Vemu.Refinement.Runs

/-!
# Runs of the machine are all that the emulator does

The emulator goes on where the machine cannot: a load that is not allowed is reported, and execution
goes on after it; a store past the end of the address space does nothing; a misaligned target is
jumped to; and there are instructions besides those of RV64I and M.  The machine *leaves* where it
fetches nothing else (`Machine.Leaves`).

**`run_follows`**: up to there, every run of the emulator is a run of the machine.  In particular a
store that the machine does not allow never goes through.
-/

namespace Riscv

namespace Machine

/-- The machine does not execute the instruction, and the emulator may go on with another state. -/
def Strays (m : Machine) (i : Instr) : Prop :=
  i.exec m.hart = none ∨ ∃ acc ∈ i.access m.hart, ¬ m.Allows acc
    ∧ (acc.writes = true → 2 ^ 64 ≤ acc.addr.toNat + acc.bytes)

def Leaves (m : Machine) : Prop := ∀ i, m.Fetches i → m.Strays i

end Machine

/-- Only a store writes to memory. -/
lemma Instr.access_writes {i : Instr} {h : Hart} {acc : Access} (hacc : i.access h = some acc)
    (hw : acc.writes = true) : ∃ op rs1 rs2 imm, i = .s op rs1 rs2 imm := by
  cases i with
  | s op rs1 rs2 imm => exact ⟨op, rs1, rs2, imm, rfl⟩
  | i op rd rs1 imm =>
      cases op <;> cases hacc <;> cases hw
  | u op rd imm => cases op <;> cases hacc
  | r | shift | shiftW | b | jal | amo | lr | system => cases hacc

end Riscv

namespace Vemu

open Fallible Loop Riscv Stepping

namespace VEmu

variable {host : Host} {s s' : VEmu} {m : Machine}

/-! ## Refused stores -/

/-- A store that the machine does not allow ends the process, if it stays in the address space. -/
lemma store_refused (hm : s.bus.mmu.Backed) (hdev : s.bus.devices = none) {sz n : ℕ}
    (hsz : MMU.sizeBytes sz = some n) {addr : U64} (hnot : ¬ s.machine.Allows ⟨addr, n, true⟩)
    (hend : addr.toNat + n < 2 ^ 64) (data : U64) :
    s.store addr data sz = .error .assertFailed := by
  have hram : s.bus.routesToRam addr = true := by
    rw [Bus.routesToRam, hdev]
    rfl
  have hwrap : ¬ s.bus.mmu.Wraps addr n := fun h => absurd h.1 (by omega)
  have hmmu : s.bus.mmu.store addr data sz = .error .assertFailed := by
    by_cases hfit : s.bus.mmu.Fits addr n
    · rw [MMU.store_of_fits hm hsz hfit, if_neg]
      intro hwritable
      refine hnot ⟨hfit, fun k hk => ?_⟩
      dsimp only at hk
      have hperm := hwritable k hk
      have haddr : (addr + BitVec.ofNat 64 k).toNat = addr.toNat + k :=
        toNat_add_ofNat_of_le (by omega)
      simpa [machine, rightsOf, haddr] using hperm
    · exact MMU.store_of_not hsz hfit hwrap
  rw [store, Bus.store_of_ram hram, Bus.storeRam, hmmu]
  rfl

lemma storeData_refused (hm : s.bus.mmu.Backed) (hdev : s.bus.devices = none) {sz n : ℕ}
    (hsz : MMU.sizeBytes sz = some n)
    (hnot : ¬ s.machine.Allows ⟨s.loadReg s.rs1 + s.imm, n, true⟩)
    (hend : (s.loadReg s.rs1 + s.imm).toNat + n < 2 ^ 64) (f : U64 → U64) :
    storeData sz f s = .error .assertFailed := store_refused hm hdev hsz hnot hend _

/-- So does a handler that stores. -/
lemma handler_refused (host : Host) (hm : s.bus.mmu.Backed) (hdev : s.bus.devices = none) (op : SOp)
    (hnot : ¬ s.machine.Allows ⟨s.loadReg s.rs1 + s.imm, op.width.bytes, true⟩)
    (hend : (s.loadReg s.rs1 + s.imm).toNat + op.width.bytes < 2 ^ 64) :
    handler host (sName op) s = .error .assertFailed := by
  cases op with
  | SB => exact storeData_refused hm hdev (n := SOp.SB.width.bytes) rfl hnot hend (· &&& 0xFF)
  | SH => exact storeData_refused hm hdev (n := SOp.SH.width.bytes) rfl hnot hend (· &&& 0xFFFF)
  | SW => exact storeData_refused hm hdev (n := SOp.SW.width.bytes) rfl hnot hend (· &&& 0xFFFFFFFF)
  | SD => exact storeData_refused hm hdev (n := SOp.SD.width.bytes) rfl hnot hend id

/-- The round of a refused store does not end. -/
lemma iterate_refused (hb : host.build = .fuzz) (hs : Runs host m s) {op : SOp} {rs1 rs2 : BitVec 5}
    {imm : BitVec 12} (hfetch : m.Fetches (.s op rs1 rs2 imm)) {acc : Access}
    (hacc : (Instr.s op rs1 rs2 imm).access m.hart = some acc) (hnot : ¬ m.Allows acc)
    (hend : acc.addr.toNat + acc.bytes < 2 ^ 64) : s.iterate host = .error .assertFailed := by
  obtain ⟨hs, hrunning, rfl⟩ := hs
  obtain ⟨hmet, hword⟩ := fetch_holds hfetch.inside hfetch.holds
  obtain ⟨ins, hins, hreads⟩ := decodeOf_encode (.s op rs1 rs2 imm)
  obtain ⟨hname, hrs1, hrs2, himm⟩ := hreads
  set s₁ : VEmu := { s with
    hexInstr := s.nextWord, currInstr := ins
    decoder := (s.decoder.decode s.nextWord).2 } with hs₁
  have haddr : acc = ⟨s₁.loadReg s₁.rs1 + s₁.imm, op.width.bytes, true⟩ := by
    obtain rfl := Option.some.inj hacc
    have himm' : s₁.imm = imm.signExtend 64 := by
      change ins.f.imm.signExtend 64 = _
      rw [himm]
      exact signExtend_twice (by decide) imm
    rw [himm']
    exact congrArg (fun r => (⟨s.iregs.data r + imm.signExtend 64, op.width.bytes, true⟩ : Access))
      hrs1.symm
  rw [haddr] at hnot hend
  have hhandler : handler host (sName op) s₁ = .error .assertFailed :=
    handler_refused (s := s₁) host hs.memory (hs.onlyRam hb).devices op hnot hend
  have hpoll : s.poll host = .ok s := if_pos hb
  have hexecute : s.execute host = .error .assertFailed := by
    rw [execute_of_fetchMet hs hb hmet, hword, hins, ok_bind, dispatch, dispatchWith, hname,
      if_pos (hs.instFuncs.symm ▸ (mem_initFuncMap _).mpr (by cases op <;> decide)), ← hword]
    exact hhandler
  rw [iterate, iterateWith, if_neg (by simp [hrunning]), hpoll, ok_bind, if_neg (by simp [hb]),
    ← execute, hexecute]
  rfl

/-! ## One round -/

/-- **A round is a step of the machine, unless it leaves.** -/
theorem follows_machine (hb : host.build = .fuzz) :
    Follows Machine.Step (fun s s' => s.iterate host = .ok (.next s')) (Runs host)
      Machine.Leaves := by
  intro m s s' hs hnext
  by_cases hleaves : m.Leaves
  · exact .inr hleaves
  · refine .inl ?_
    simp only [Machine.Leaves, not_forall] at hleaves
    obtain ⟨i, hfetch, hstrays⟩ := hleaves
    rw [Machine.Strays, not_or] at hstrays
    obtain ⟨hexec, hstrays⟩ := hstrays
    obtain ⟨t, ht⟩ := Option.ne_none_iff_exists'.mp hexec
    have hallows : ∀ acc ∈ i.access m.hart, m.Allows acc := by
      intro acc hacc
      by_contra hnot
      simp only [not_exists, not_and, not_forall] at hstrays
      obtain ⟨hwrites, hend⟩ := hstrays acc hacc hnot
      obtain ⟨op, rs1, rs2, imm, rfl⟩ := Instr.access_writes hacc hwrites
      have hfault := iterate_refused hb hs hfetch hacc hnot (by omega)
      cases hnext.symm.trans hfault
    have hstep : m.exec i
        = some { m with hart := t, rights := m.rightsAfter (i.access m.hart) } := by
      rw [Machine.exec, if_pos hallows, ht]
      rfl
    obtain ⟨s₁, hnext₁, hs₁⟩ := simulates_machine hb m s _ hs ⟨i, hfetch, hstep⟩
    obtain rfl := Turn.next.inj (Except.ok.inj (hnext.symm.trans hnext₁))
    exact ⟨_, ⟨i, hfetch, hstep⟩, hs₁⟩

/-! ## Whole runs -/

/-- A run of `n + 1` rounds is a round and a run of `n`. -/
lemma run_succ_next {n : ℕ} {t : VEmu} (h : s.run host (n + 1) = .ok (.next t)) :
    ∃ s₁, s.iterate host = .ok (.next s₁) ∧ s₁.run host n = .ok (.next t) := by
  obtain ⟨turn, hturn, h⟩ := bind_eq_ok_iff.mp h
  cases turn with
  | returned code => cases h
  | next s₁ => exact ⟨s₁, hturn, h⟩

lemma rounds_of_run {n : ℕ} (h : s.run host n = .ok (.next s')) :
    Steps (fun s s' => s.iterate host = .ok (.next s')) n s s' := by
  induction n generalizing s with
  | zero =>
      obtain rfl := Turn.next.inj (Except.ok.inj h)
      exact .zero s
  | succ n ih =>
      obtain ⟨s₁, h₁, h⟩ := run_succ_next h
      exact .succ h₁ (ih h)

/-- **A run is a run of the machine**, round by round, up to a state in which the machine leaves. -/
theorem run_follows (hb : host.build = .fuzz) (hs : Runs host m s) {n : ℕ}
    (h : s.run host n = .ok (.next s')) :
    (∃ m', Steps Machine.Step n m m' ∧ Runs host m' s')
      ∨ ∃ k < n, ∃ m', Steps Machine.Step k m m' ∧ m'.Leaves :=
  (follows_machine hb).steps (rounds_of_run h) m hs

/-- The guest that adds is followed for its first round. -/
theorem run_follows_adding : ∃ s', (adding 4).run (.bare .fuzz) 1 = .ok (.next s')
    ∧ ((∃ m', Steps Machine.Step 1 (adding 4).machine m' ∧ Runs (.bare .fuzz) m' s')
      ∨ ∃ k < 1, ∃ m', Steps Machine.Step k (adding 4).machine m' ∧ m'.Leaves) := by
  obtain ⟨s', hsteps, -⟩ := (simulates_machine rfl).steps (steps_adding 4) _ (runs_adding 4)
  have hrun := run_of_rounds hsteps 0
  exact ⟨s', hrun, run_follows rfl (runs_adding 4) hrun⟩

end VEmu

end Vemu
