import Vemu.HostSafety.ExitStatus
import Vemu.Refinement.Reading

/-!
# Runs of the emulator are runs of the machine

In the fuzzing build the emulator is a machine that runs RV64IM: its registers and its RAM are those
of the hart, and its permission bytes say what may be done with a byte (`VEmu.machine`).

**`simulates_machine`**: a round of the emulator follows every step of the machine, and leaves the
machine of that step.  So a run of `n` rounds follows `n` steps (`run_simulates`), a guest that comes
to a call of `exit` ends the run with its number (`run_exits`), and what is proved of a program with
the rules for the machine holds of the emulator that runs it (`emulates`).
-/

namespace Vemu

open Fallible Loop Riscv Stepping

namespace VEmu

variable {host : Host} {s s' : VEmu} {m' : Machine}

/-! ## The machine that an emulator is -/

/-- What a permission byte says. -/
def rightsOf (p : U8) : Rights where
  reads := p &&& permRead ≠ 0
  writes := p &&& permWrite ≠ 0
  fresh := p &&& permRaw ≠ 0

def machine (s : VEmu) : Machine where
  hart := s.hart
  rights := fun a => rightsOf (s.bus.mmu.bytePermission.data a.toNat)
  size := s.bus.mmu.ramSize.toNat

lemma rightsOf_initialised (p : U8) : rightsOf (MMU.initialised p) = (rightsOf p).written := by
  revert p
  decide

/-! ## Accesses -/

/-- What the machine allows, the bus and the memory unit admit. -/
lemma admitted_of_allows (hdev : s.bus.devices = none) {acc : Access} (h : s.machine.Allows acc) :
    s.Admitted acc ∧ ¬ s.AtRamEnd acc := by
  have hinside : acc.addr.toNat + acc.bytes < s.bus.mmu.ramSize.toNat := h.inside
  have hsize := s.bus.mmu.ramSize.isLt
  refine ⟨⟨?_, hinside.le, fun k hk => ?_⟩, hinside.ne⟩
  · rw [Bus.routesToRam, hdev]
    rfl
  · have hperm := h.permitted k hk
    have haddr : (acc.addr + BitVec.ofNat 64 k).toNat = acc.addr.toNat + k :=
      toNat_add_ofNat_of_le (by omega)
    simp only [machine, rightsOf, haddr, decide_eq_true_eq, decide_eq_false_iff_not,
      not_not] at hperm
    exact hperm

/-- What is seen of memory by its permissions. -/
lemma machine_rights_of_same (h : s'.bus.mmu = s.bus.mmu) {acc : Option Access}
    (hacc : ∀ a ∈ acc, a.writes = false) :
    s'.machine.rights = s.machine.rightsAfter acc ∧ s'.machine.size = s.machine.size := by
  unfold machine
  rw [h]
  refine ⟨?_, rfl⟩
  cases acc with
  | none => rfl
  | some a =>
      funext b
      simp only [Machine.rightsAfter, hacc a rfl, Bool.false_eq_true, false_and, if_false]

lemma machine_rights_of_none (h : s'.bus.mmu = s.bus.mmu) :
    s'.machine.rights = s.machine.rightsAfter none ∧ s'.machine.size = s.machine.size :=
  machine_rights_of_same h nofun

/-- A store makes fresh bytes readable. -/
lemma machine_rights_of_store {addr data : U64} {sz n : ℕ} {e : ReturnException}
    (hm : s.bus.mmu.Backed) (hsz : MMU.sizeBytes sz = some n) (hadm : s.Admitted ⟨addr, n, true⟩)
    (hend : ¬ s.AtRamEnd ⟨addr, n, true⟩) (h : s.store addr data sz = .ok (e, s')) :
    s'.machine.rights = s.machine.rightsAfter (some ⟨addr, n, true⟩)
      ∧ s'.machine.size = s.machine.size := by
  have hfit : s.bus.mmu.Fits addr n := hadm.fits hend
  have hperm := hadm.permitted
  simp only [if_true] at hperm
  have hwritable : s.bus.mmu.Writable addr n := hperm
  rw [store, Bus.store_of_ram hadm.toRam, Bus.storeRam, MMU.store_of_fits hm hsz hfit,
    if_pos hwritable] at h
  obtain ⟨-, rfl⟩ := Prod.mk.inj (Except.ok.inj h)
  refine ⟨?_, rfl⟩
  funext b
  have hsub : (b - addr).toNat = (2 ^ 64 - addr.toNat + b.toNat) % 2 ^ 64 := BitVec.toNat_sub b addr
  have hsize := s.bus.mmu.ramSize.isLt
  have hb := b.isLt
  have haddr := addr.isLt
  unfold MMU.Fits at hfit
  change rightsOf (mapOn MMU.initialised s.bus.mmu.bytePermission.data addr.toNat
    (MMU.split n data).length b.toNat) = _
  rw [MMU.length_split, Machine.rightsAfter]
  by_cases hin : addr.toNat ≤ b.toNat ∧ b.toNat < addr.toNat + n
  · rw [mapOn_of_mem hin, rightsOf_initialised, if_pos ⟨rfl, by dsimp only; omega⟩]
    rfl
  · rw [mapOn_of_not_mem hin, if_neg (by dsimp only; omega)]
    rfl

/-! ## The permissions after an instruction -/

lemma mmu_of_normal {e : ReturnException} {t : VEmu} (h : normal t = .ok (e, s'))
    (ht : t.bus = s.bus) : s'.bus.mmu = s.bus.mmu := by
  obtain ⟨-, rfl⟩ := Prod.mk.inj (Except.ok.inj h)
  exact congrArg Bus.mmu ht

lemma mmu_of_branch {e : ReturnException} {f : U64 → U64 → Bool} (h : branch f s = .ok (e, s')) :
    s'.bus.mmu = s.bus.mmu := by
  refine mmu_of_normal h ?_
  split
  · rfl
  · rfl

lemma mmu_of_loadUnsigned {e : ReturnException} {sz : ℕ} (h : loadUnsigned sz s = .ok (e, s')) :
    s'.bus.mmu = s.bus.mmu := by
  rw [loadUnsigned, bind_eq_ok_iff] at h
  obtain ⟨⟨⟨res, exp⟩, s₁⟩, h₁, h⟩ := h
  have hload : s₁.bus.mmu = s.bus.mmu := (load_keeps h₁).2
  dsimp only at h
  split_ifs at h
  · obtain ⟨-, rfl⟩ := Prod.mk.inj (Except.ok.inj h)
    exact hload
  · exact (mmu_of_normal h rfl).trans hload

lemma mmu_of_loadSigned {e : ReturnException} {bits sz : ℕ}
    (h : loadSigned bits (loadUnsigned sz) s = .ok (e, s')) : s'.bus.mmu = s.bus.mmu := by
  rw [loadSigned, bind_eq_ok_iff] at h
  obtain ⟨⟨e₁, s₁⟩, h₁, h⟩ := h
  have hlast : s'.bus.mmu = s₁.bus.mmu := mmu_of_normal h rfl
  exact hlast.trans (mmu_of_loadUnsigned h₁)

/-- **Only a store changes permissions**, and only those of fresh bytes. -/
lemma operation_rights (hm : s.bus.mmu.Backed) {n : IName} {o : Rv64i} {e : ReturnException}
    (hop : operation n s.currInstr.f = some o)
    (hacc : ∀ acc ∈ o.access s.hart, s.Admitted acc ∧ ¬ s.AtRamEnd acc)
    (h : handler host n s = .ok (e, s')) :
    s'.machine.rights = s.machine.rightsAfter (o.access s.hart)
      ∧ s'.machine.size = s.machine.size := by
  cases n <;> simp only [handler] at h
  case SB | SH | SW | SD =>
    obtain rfl := Option.some.inj hop
    obtain ⟨hadm, hend⟩ := hacc _ rfl
    exact machine_rights_of_store hm rfl hadm hend h
  case BEQ | BNE | BLT | BGE | BLTU | BGEU =>
    obtain rfl := Option.some.inj hop
    exact machine_rights_of_none (mmu_of_branch h)
  case LBU | LHU | LWU | LD =>
    obtain rfl := Option.some.inj hop
    refine machine_rights_of_same (mmu_of_loadUnsigned h) ?_
    rintro acc ⟨⟩
    rfl
  case LB | LH | LW =>
    obtain rfl := Option.some.inj hop
    refine machine_rights_of_same (mmu_of_loadSigned h) ?_
    rintro acc ⟨⟩
    rfl
  case LUI | AUIPC | JAL | JALR | ADDI | SLTI | SLTIU | XORI | ORI | ANDI | SLLI | SRLI | SRAI
      | ADDIW | SLLIW | SRLIW | SRAIW | ADD | SUB | SLL | SLT | SLTU | XOR | SRL | SRA | OR | AND
      | ADDW | SUBW | SLLW | SRLW | SRAW | FENCE | FENCEI =>
    obtain rfl := Option.some.inj hop
    have hmmu : s'.bus.mmu = s.bus.mmu := mmu_of_normal h rfl
    exact machine_rights_of_none hmmu
  -- the other mnemonics are not of RV64I
  all_goals cases hop

/-! ## One instruction -/

lemma exec_of_rv64i {i : Instr} {b : Rv64i} (hb : i.rv64i = some b) (t : Hart) :
    i.exec t = b.exec t := by
  cases i with
  | r => cases hb
  | _ => simp only [Instr.exec, hb, Option.bind_some]

lemma access_of_rv64i {i : Instr} {b : Rv64i} (hb : i.rv64i = some b) (t : Hart) :
    i.access t = b.access t := by
  simp only [Instr.access, hb, Option.bind_some]

/-- The handler goes through and leaves the machine, once the loop has added four. -/
def Executes (h : Handler) (s : VEmu) (m' : Machine) : Prop :=
  ∃ s', h s = .ok (.NormalExecutionReturn, s')
    ∧ { s'.machine with hart := { s'.hart with pc := s'.pc + 4 } } = m'

/-- A handler that performs the step of the hart and has the right effect on the permissions. -/
lemma Performs.executes {h : Handler} {t : Hart} {acc : Option Access} (hp : Performs h s t)
    (hr : ∀ s', h s = .ok (.NormalExecutionReturn, s') →
      s'.machine.rights = s.machine.rightsAfter acc ∧ s'.machine.size = s.machine.size)
    (ht : t = m'.hart) (hrights : m'.rights = s.machine.rightsAfter acc)
    (hsize : m'.size = s.machine.size) : Executes h s m' := by
  obtain ⟨s', hs', hhart⟩ := hp
  obtain ⟨hr', hsize'⟩ := hr s' hs'
  exact ⟨s', hs', Machine.ext (hhart.trans ht) (hr'.trans hrights.symm) (hsize'.trans hsize.symm)⟩

/-- **An instruction of RV64I or M is executed as the machine has it.** -/
lemma handler_executes (host : Host) (hm : s.bus.mmu.Backed) (hdev : s.bus.devices = none)
    {i : Instr} (hreads : Reads s.currInstr i) (hexec : s.machine.exec i = some m') :
    Executes (handler host s.currInstr.name) s m' := by
  obtain ⟨hallows, ht, hrights, hsize⟩ := Machine.exec_eq_some hexec
  have ht' : i.exec s.hart = some m'.hart := ht
  have hacc : ∀ acc ∈ i.access s.hart, s.Admitted acc ∧ ¬ s.AtRamEnd acc :=
    fun acc hacc => admitted_of_allows hdev (hallows acc hacc)
  -- what is left to do where the fields are read as an instruction of RV64I
  have hread : ∀ o, operation s.currInstr.name s.currInstr.f = some o →
      o.access s.hart = i.access s.hart → o.exec s.hart = i.exec s.hart →
      Executes (handler host s.currInstr.name) s m' := by
    intro o hop haccess hoexec
    rw [← haccess] at hacc
    have hperf : Performs (handler host s.currInstr.name) s m'.hart := by
      refine handler_performs host _ hm hop (fun acc h => (hacc acc h).1) ?_ (hoexec.trans ht')
      rintro ⟨acc, hmem, hend⟩
      exact (hacc acc hmem).2 hend
    exact hperf.executes (fun s' hs' => operation_rights hm hop hacc hs') rfl (haccess ▸ hrights)
      hsize
  cases hb : i.rv64i with
  | some b =>
      obtain ⟨o, hop, heff⟩ := operation_of_reads hreads hb
      exact hread o hop ((heff.access _).trans (access_of_rv64i hb _).symm)
        ((heff.exec _).trans (exec_of_rv64i hb _).symm)
  | none =>
      cases i with
      | r op rd rs1 rs2 =>
          rcases operation_r hreads with ⟨o, hop, haccess, hoexec⟩ | hcomputes
          · exact hread o hop (haccess _) (hoexec _)
          · obtain ⟨-, rfl, rfl, rfl⟩ := hreads
            obtain ⟨hstays, hwrites⟩ := hcomputes host
            refine ((hwrites s).performs hstays).executes (fun s' hs' => ?_)
              (Option.some.inj ht') hrights hsize
            exact machine_rights_of_none (Prod.mk.inj (hstays s _ s' hs')).2
      | _ => simp only [Instr.exec, hb, Option.bind_none, reduceCtorEq] at ht'

/-! ## One round -/

/-- The emulator is in order, has not exited, and is the machine. -/
structure Runs (host : Host) (m : Machine) (s : VEmu) : Prop where
  intact : s.Intact host
  running : s.hasExited = false
  machine : s.machine = m

/-- The word that a fetch finds is the one that memory holds. -/
lemma fetch_holds {w : U32} (hinside : s.pc.toNat + 4 ≤ s.bus.mmu.ramSize.toNat)
    (hw : s.machine.Holds s.pc w) : s.FetchMet ∧ s.nextWord = w := by
  have hsize := s.bus.mmu.ramSize.isLt
  constructor
  · intro k hk
    rw [toNat_add_ofNat_of_le (by omega)]
    omega
  · rw [nextWord, ← MMU.assemble_word w]
    congr 2
    exact List.map_congr_left fun k hk => hw k (List.mem_range.mp hk)

/-- What a handler that is not an environment call leaves is running. -/
lemma hasExited_handler (host : Host) {n : IName} (hecall : n ≠ .ECALL) (hmret : n ≠ .MRET)
    (hsret : n ≠ .SRET) : Preserves (fun s => s.hasExited) (handler host n) :=
  have hview : Unseen fun s : VEmu => s.hasExited := .of_bus (fun _ _ => rfl) fun _ _ => rfl
  (hview.families (fun _ _ => rfl) fun _ _ => rfl).handler host hecall hmret hsret

/-- An instruction of RV64I or M is none of these, and has a handler. -/
lemma not_environment {ins : Instruction} {i : Instr} (hreads : Reads ins i) {t t' : Hart}
    (hexec : i.exec t = some t') :
    ins.name ≠ .ECALL ∧ ins.name ≠ .MRET ∧ ins.name ≠ .SRET ∧ ins.name ≠ .FSQRTS := by
  cases i with
  | amo => cases hexec
  | lr => cases hexec
  | system => cases hexec
  | jal =>
      rw [hreads.1]
      decide
  | r op | i op | shift op | shiftW op | s op | b op | u op =>
      rw [hreads.1]
      cases op <;> decide

/-- **A round follows a step of the machine.** -/
theorem simulates_machine (hb : host.build = .fuzz) :
    Simulation Machine.Step (fun s s' => s.iterate host = .ok (.next s')) (Runs host) := by
  rintro m s m' ⟨hs, hrunning, rfl⟩ ⟨i, hfetch, hexec⟩
  obtain ⟨hmet, hword⟩ := fetch_holds hfetch.inside hfetch.holds
  obtain ⟨ins, hins, hreads⟩ := decodeOf_encode i
  obtain ⟨-, ht, -, -⟩ := Machine.exec_eq_some hexec
  obtain ⟨hecall, hmret, hsret, hsqrt⟩ := not_environment hreads ht
  set s₁ : VEmu := { s with
    hexInstr := s.nextWord, currInstr := ins
    decoder := (s.decoder.decode s.nextWord).2 } with hs₁
  have hdev : s.bus.devices = none := (hs.onlyRam hb).devices
  obtain ⟨s₂, hhandler, hmachine⟩ : Executes (handler host ins.name) s₁ m' :=
    handler_executes (s := s₁) host hs.memory hdev hreads hexec
  have hexecute : s.execute host = .ok (.NormalExecutionReturn, s₂) := by
    rw [execute_of_fetchMet hs hb hmet, hword, hins, ok_bind, dispatch, dispatchWith,
      if_pos (hs.instFuncs.symm ▸ (mem_initFuncMap _).mpr hsqrt), ← hword]
    exact hhandler
  have hnext := iterate_of_execute hb hrunning hexecute
  refine ⟨_, hnext, hs.iterate hnext, ?_, hmachine⟩
  exact (hasExited_handler host hecall hmret hsret s₁ _ s₂ hhandler).trans hrunning

/-! ## Whole runs -/

lemma run_of_rounds {n : ℕ} (h : Steps (fun s s' => s.iterate host = .ok (.next s')) n s s')
    (k : ℕ) :
    s.run host (n + k) = s'.run host k := by
  induction h with
  | zero => rw [Nat.zero_add]
  | succ h _ ih =>
      rw [Nat.add_right_comm, run, h, ok_bind]
      exact ih

variable {m : Machine}

/-- **A run follows the steps of the machine**, one round a step. -/
theorem run_simulates (hb : host.build = .fuzz) (hs : Runs host m s) {n : ℕ}
    (h : Steps Machine.Step n m m') :
    ∃ s', s.run host n = .ok (.next s') ∧ Runs host m' s' := by
  obtain ⟨s', hsteps, hs'⟩ := (simulates_machine hb).steps h s hs
  exact ⟨s', run_of_rounds hsteps 0, hs'⟩

lemma Runs.callsExit (hs : Runs host m s) (hcall : m.Fetches (.system .ECALL))
    (hnr : m.hart.x regA7 = syscallNrExit) : s.CallsExit := by
  obtain ⟨hintact, hrunning, rfl⟩ := hs
  obtain ⟨hmet, hword⟩ := fetch_holds hcall.inside hcall.holds
  obtain ⟨ins, hins, hname, -⟩ := decodeOf_encode (.system .ECALL)
  exact ⟨hrunning, hmet, ⟨ins, hword ▸ hins, hname⟩, hnr⟩

/-- **A guest that comes to `exit` ends the run**, with the number that it computed. -/
theorem run_exits (hb : host.build = .fuzz) (hs : Runs host m s) {n : ℕ}
    (h : Steps Machine.Step n m m') (hcall : m'.Fetches (.system .ECALL))
    (hnr : m'.hart.x regA7 = syscallNrExit) (rounds : ℕ) :
    s.run host (n + (rounds + 2))
      = .ok (.returned ((reducedStatus (m'.hart.x regA0)).setWidth 32)) := by
  obtain ⟨s₁, hsteps, hs₁⟩ := (simulates_machine hb).steps h s hs
  obtain ⟨s₂, hnext, hexited, hcode, -, -⟩ :=
    iterate_exit hb hs₁.intact (hs₁.callsExit hcall hnr)
  have ha0 : s₁.loadReg regA0 = m'.hart.x regA0 := by
    rw [← hs₁.machine]
    rfl
  rw [run_of_rounds hsteps, run_of_exited hnext hexited rfl, hcode, ha0]

/-- **What is proved of a program for the machine** holds of the emulator that runs it. -/
theorem emulates (hb : host.build = .fuzz) {P Q : Machine → Prop}
    (h : Reaches Machine.Step P Q) (hs : Runs host m s) (hm : P m) :
    ∃ n s', s.run host n = .ok (.next s') ∧ Runs host s'.machine s' ∧ Q s'.machine := by
  obtain ⟨n, s', hsteps, m', hs', hQ⟩ := (simulates_machine hb).reaches h s ⟨m, hs, hm⟩
  obtain rfl := hs'.machine
  exact ⟨n, s', run_of_rounds hsteps 0, hs', hQ⟩

/-! ## A guest that adds and exits -/

/-- `addi a0, a0, 3`. -/
def addThree : Instr := .i .ADDI 10 10 3

/-- One page of RAM with that and `ecall`. -/
def addingMemory : MMU :=
  (MMU.uniform 4096 (permExec ||| permRead ||| permWrite)).written 0
    (MMU.split 4 (addThree.encode.setWidth 64)
      ++ MMU.split 4 ((Instr.system .ECALL).encode.setWidth 64))

/-- A number is in `a0`, and the number of `exit` in `a7`. -/
def adding (a0 : U64) : VEmu :=
  { onePage 0 0 with
    bus := { devices := none, ramSize := 4096, mmu := addingMemory }
    iregs := (RegFile.new.storeReg regA7 syscallNrExit).storeReg regA0 a0 }

lemma runs_adding (a0 : U64) : Runs (.bare .fuzz) (adding a0).machine (adding a0) where
  intact := ⟨rfl, (MMU.backed_uniform (by decide) _).withContents _ _, rfl,
    InstructionDecoder.consistent_init⟩
  running := rfl
  machine := rfl

/-- The machine after the addition. -/
def added (a0 : U64) : Machine :=
  { (adding a0).machine with hart := (adding a0).hart.next 10 (a0 + 3) }

lemma steps_adding (a0 : U64) : Steps Machine.Step 1 (adding a0).machine (added a0) := by
  have hholds : (adding 0).machine.Holds 0 addThree.encode := by decide +kernel
  have hinside : (adding 0).machine.hart.pc.toNat + 4 ≤ (adding 0).machine.size := by decide
  exact .one ⟨addThree, ⟨hinside, hholds⟩, Machine.exec_of_no_access rfl rfl⟩

theorem run_simulates_adding : ∃ s', (adding 4).run (.bare .fuzz) 1 = .ok (.next s')
    ∧ Runs (.bare .fuzz) (added 4) s' := run_simulates rfl (runs_adding 4) (steps_adding 4)

/-- Four and three are seven. -/
theorem run_exits_adding : (adding 4).run (.bare .fuzz) 3
    = .ok (.returned ((reducedStatus ((added 4).hart.x regA0)).setWidth 32))
      ∧ reducedStatus ((added 4).hart.x regA0) = 7 := by
  have hholds : (added 4).Holds 4 (Instr.system .ECALL).encode := by decide +kernel
  have hinside : (added 4).hart.pc.toNat + 4 ≤ (added 4).size := by decide
  exact ⟨run_exits rfl (runs_adding 4) (steps_adding 4) ⟨hinside, hholds⟩ rfl 0, by decide +kernel⟩

end VEmu

end Vemu
