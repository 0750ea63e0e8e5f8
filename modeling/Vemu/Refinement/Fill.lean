import Vemu.Refinement.Runs

/-!
# A loop, from its encoding to the emulator

Four instructions that fill a block of memory with a byte.  For the machine they are shown to be
right with the rules for programs, for every length and wherever code and block are
(**`fill_reaches`**); an emulator whose RAM holds the four words therefore fills the block.
-/

namespace Riscv

open Stepping

/-- `sb x11, 0(x10)`, `addi x10, x10, 1`, `addi x12, x12, -1`, and `bne x12, x0, -12`. -/
def fillLoop : List Instr :=
  [.s .SB 10 11 0, .i .ADDI 10 10 1, .i .ADDI 12 12 (-1), .b .BNE 12 0 (-6)]

namespace Machine

variable {m m₀ : Machine} {k : ℕ}

/-- The address of the block, the byte, and the number of bytes. -/
def block (m : Machine) : BitVec 64 := m.hart.x 10

def filler (m : Machine) : BitVec 8 := (m.hart.x 11).setWidth 8

def count (m : Machine) : ℕ := (m.hart.x 12).toNat

/-- The loop is at the program counter, and the block is apart from it and can be written. -/
structure FillReady (m : Machine) : Prop where
  aligned : m.hart.pc.toNat % 4 = 0
  code : ∀ j i, fillLoop[j]? = some i → m.Holds (m.hart.pc + BitVec.ofNat 64 (4 * j)) i.encode
  room : m.hart.pc.toNat + 16 ≤ m.size
  size : m.size < 2 ^ 64
  zero : m.hart.x 0 = 0
  count_pos : 0 < m.count
  inside : m.block.toNat + m.count < m.size
  writes : ∀ j < m.count, (m.rights (m.block + BitVec.ofNat 64 j)).writes = true
  apart : m.block.toNat + m.count ≤ m.hart.pc.toNat ∨ m.hart.pc.toNat + 16 ≤ m.block.toNat

/-- The first `k` bytes of the block are filled. -/
structure Filled (m₀ : Machine) (k : ℕ) (m : Machine) : Prop where
  mem : ∀ b, m.hart.mem b
    = if (b - m₀.block).toNat < k then m₀.filler else m₀.hart.mem b
  writes : ∀ b, (m.rights b).writes = (m₀.rights b).writes
  size : m.size = m₀.size

/-- The registers after `k` rounds. -/
def registers (m₀ : Machine) (k : ℕ) : BitVec 5 → BitVec 64 :=
  Function.update (Function.update m₀.hart.x 10 (m₀.block + BitVec.ofNat 64 k)) 12
    (m₀.hart.x 12 - BitVec.ofNat 64 k)

/-- The loop starts its round `k + 1`. -/
structure AtHead (m₀ : Machine) (k : ℕ) (m : Machine) : Prop extends Filled m₀ k m where
  pc : m.hart.pc = m₀.hart.pc
  x : m.hart.x = m₀.registers k

/-- The loop is over. -/
structure Done (m₀ : Machine) (m : Machine) : Prop extends Filled m₀ m₀.count m where
  pc : m.hart.pc = m₀.hart.pc + 16
  x : m.hart.x = m₀.registers m₀.count

lemma atHead_zero (m₀ : Machine) : AtHead m₀ 0 m₀ where
  mem := fun b => (if_neg (Nat.not_lt_zero _)).symm
  writes := fun _ => rfl
  size := rfl
  pc := rfl
  x := by
    funext r
    simp [registers, block]

/-- The code is not in the block. -/
lemma Filled.holds (h₀ : m₀.FillReady) (h : Filled m₀ k m) (hk : k ≤ m₀.count) {j : ℕ} {i : Instr}
    (hj : fillLoop[j]? = some i) : m.Holds (m₀.hart.pc + BitVec.ofNat 64 (4 * j)) i.encode := by
  intro l hl
  have hlen : j < 4 := (List.getElem?_eq_some_iff.mp hj).1
  have hroom := h₀.room
  have hsize := h₀.size
  have hinside := h₀.inside
  rw [h.mem, if_neg, h₀.code j i hj l hl]
  have hsub : (m₀.hart.pc + BitVec.ofNat 64 (4 * j) + BitVec.ofNat 64 l - m₀.block).toNat
      = (2 ^ 64 - m₀.block.toNat + (m₀.hart.pc.toNat + 4 * j + l)) % 2 ^ 64 := by
    rw [BitVec.toNat_sub, BitVec.toNat_add, BitVec.toNat_add, BitVec.toNat_ofNat,
      BitVec.toNat_ofNat]
    congr 2
    omega
  have hblock := m₀.block.isLt
  rcases h₀.apart with hlo | hhi
  · omega
  · omega

/-- What the machine fetches in the loop. -/
lemma Filled.fetches (h₀ : m₀.FillReady) (h : Filled m₀ k m) (hk : k ≤ m₀.count) {j : ℕ} {i : Instr}
    (hj : fillLoop[j]? = some i) (hpc : m.hart.pc = m₀.hart.pc + BitVec.ofNat 64 (4 * j)) :
    m.Fetches i := by
  have hlen : j < 4 := (List.getElem?_eq_some_iff.mp hj).1
  have hroom := h₀.room
  have hsize := h₀.size
  refine ⟨?_, hpc ▸ h.holds h₀ hk hj⟩
  rw [hpc, h.size, BitVec.toNat_add, BitVec.toNat_ofNat]
  omega

/-! ## One round -/

lemma sub_add_eq (x y z : BitVec 64) : x - (y + z) = x - y - z := by
  apply BitVec.eq_of_toNat_eq
  rw [BitVec.toNat_sub, BitVec.toNat_sub, BitVec.toNat_sub, BitVec.toNat_add]
  omega

/-- One byte more is filled. -/
lemma stored_next (h : Filled m₀ k m) (hk : k < 2 ^ 64) (b : BitVec 64) :
    m.hart.stored (m₀.block + BitVec.ofNat 64 k) 1 (m₀.hart.x 11) b
      = if (b - m₀.block).toNat < k + 1 then m₀.filler else m₀.hart.mem b := by
  have hsub : b - (m₀.block + BitVec.ofNat 64 k) = (b - m₀.block) - BitVec.ofNat 64 k :=
    sub_add_eq ..
  have hlt := (b - m₀.block).isLt
  have hoff : ((b - m₀.block) - BitVec.ofNat 64 k).toNat < 1 ↔ (b - m₀.block).toNat = k := by
    rw [BitVec.toNat_sub, BitVec.toNat_ofNat]
    omega
  rw [Hart.stored, hsub, h.mem]
  by_cases hb : (b - m₀.block).toNat = k
  · have hzero : ((b - m₀.block) - BitVec.ofNat 64 k).toNat = 0 := Nat.lt_one_iff.mp (hoff.mpr hb)
    rw [if_pos (hoff.mpr hb), if_pos (by omega), hzero]
    rfl
  · rw [if_neg (mt hoff.mp hb)]
    exact if_congr (by omega) rfl rfl

/-- The byte after the filled ones can be written. -/
lemma AtHead.allows (h₀ : m₀.FillReady) (h : AtHead m₀ k m) (hk : k < m₀.count) :
    m.Allows ⟨m₀.block + BitVec.ofNat 64 k, 1, true⟩ := by
  have hinside := h₀.inside
  have hsize := h₀.size
  refine ⟨?_, fun j hj => ?_⟩
  · rw [h.size, BitVec.toNat_add, BitVec.toNat_ofNat]
    dsimp only
    omega
  · obtain rfl := Nat.lt_one_iff.mp hj
    rw [if_pos rfl, h.writes]
    exact (congrArg (fun a => (m₀.rights a).writes) (BitVec.add_zero _)).trans (h₀.writes k hk)

/-- `sb x11, 0(x10)`. -/
lemma step_store (h₀ : m₀.FillReady) (h : AtHead m₀ k m) (hk : k < m₀.count) :
    ∃ m', Step m m' ∧ Filled m₀ (k + 1) m' ∧ m'.hart.pc = m₀.hart.pc + BitVec.ofNat 64 4
      ∧ m'.hart.x = m₀.registers k := by
  have hfetch : m.Fetches (.s .SB 10 11 0) :=
    h.toFilled.fetches h₀ hk.le (j := 0) rfl (by simp [h.pc])
  have haddr : m.hart.x 10 + 0 = m₀.block + BitVec.ofNat 64 k := by
    rw [h.x]
    exact BitVec.add_zero _
  have hbyte : m.hart.x 11 = m₀.hart.x 11 := by
    rw [h.x]
    rfl
  have haccess : (Instr.s .SB 10 11 0).access m.hart
      = some ⟨m₀.block + BitVec.ofNat 64 k, 1, true⟩ := by
    rw [← haddr]
    rfl
  have hexec : m.exec (.s .SB 10 11 0) = some
      { m with
        hart := { m.hart with
          mem := m.hart.stored (m₀.block + BitVec.ofNat 64 k) 1 (m₀.hart.x 11)
          pc := m.hart.pc + 4 }
        rights := m.rightsAfter (some ⟨m₀.block + BitVec.ofNat 64 k, 1, true⟩) } := by
    rw [exec, haccess, if_pos (by rintro acc ⟨⟩; exact h.allows h₀ hk), ← haddr, ← hbyte]
    rfl
  refine ⟨_, ⟨_, hfetch, hexec⟩, ⟨?_, fun b => ?_, h.size⟩, ?_, h.x⟩
  · have hlt := (m₀.hart.x 12).isLt
    exact stored_next h.toFilled (lt_trans hk hlt)
  · rw [← h.writes b]
    dsimp only [rightsAfter]
    unfold Rights.written
    split_ifs <;> rfl
  · rw [← h.pc]
    rfl

/-- An addition to a register, in the middle of the loop. -/
lemma step_add (h₀ : m₀.FillReady) (h : Filled m₀ k m) (hk : k ≤ m₀.count) {j : ℕ} {rd : BitVec 5}
    {imm : BitVec 12} (hj : fillLoop[j]? = some (.i .ADDI rd rd imm))
    (hpc : m.hart.pc = m₀.hart.pc + BitVec.ofNat 64 (4 * j)) :
    ∃ m', Step m m' ∧ Filled m₀ k m' ∧ m'.hart.pc = m₀.hart.pc + BitVec.ofNat 64 (4 * (j + 1))
      ∧ m'.hart.x = m.hart.write rd (m.hart.x rd + imm.signExtend 64) := by
  refine ⟨_, ⟨_, h.fetches h₀ hk hj hpc, exec_of_no_access rfl rfl⟩, ⟨h.mem, h.writes, h.size⟩, ?_,
    rfl⟩
  change m.hart.pc + 4 = _
  rw [hpc, BitVec.add_assoc, Nat.mul_add, BitVec.ofNat_add]
  rfl

/-- `bne x12, x0, -12`. -/
lemma step_branch (h₀ : m₀.FillReady) (h : Filled m₀ k m) (hk : k ≤ m₀.count)
    (hpc : m.hart.pc = m₀.hart.pc + BitVec.ofNat 64 12) (hzero : m.hart.x 0 = 0) :
    ∃ m', Step m m' ∧ Filled m₀ k m' ∧ m'.hart.x = m.hart.x
      ∧ m'.hart.pc = if m.hart.x 12 = 0 then m₀.hart.pc + 16 else m₀.hart.pc := by
  have hfetch : m.Fetches (.b .BNE 12 0 (-6)) := h.fetches h₀ hk (j := 3) rfl hpc
  by_cases hend : m.hart.x 12 = 0
  · have hexec : (Instr.b .BNE 12 0 (-6)).exec m.hart
        = some { m.hart with pc := m.hart.pc + 4 } := by
      have htaken : BOp.BNE.taken (m.hart.x 12) (m.hart.x 0) = false :=
        decide_eq_false (not_not.mpr (hend.trans hzero.symm))
      simp only [Instr.exec, Instr.rv64i, Option.bind_some, Rv64i.exec, htaken,
        Bool.false_eq_true, if_false]
    refine ⟨_, ⟨_, hfetch, exec_of_no_access rfl hexec⟩, ⟨h.mem, h.writes, h.size⟩, rfl, ?_⟩
    rw [if_pos hend]
    change m.hart.pc + 4 = _
    rw [hpc, BitVec.add_assoc]
    rfl
  · have htarget : m.hart.pc + (offset (-6 : BitVec 12)).signExtend 64 = m₀.hart.pc := by
      rw [hpc, BitVec.add_assoc]
      exact BitVec.add_zero _
    have hexec : (Instr.b .BNE 12 0 (-6)).exec m.hart
        = some { m.hart with pc := m₀.hart.pc } := by
      have htaken : BOp.BNE.taken (m.hart.x 12) (m.hart.x 0) = true :=
        decide_eq_true fun heq => hend (heq.trans hzero)
      simp only [Instr.exec, Instr.rv64i, Option.bind_some, Rv64i.exec, htaken, if_true, htarget,
        Hart.link, h₀.aligned, Hart.write]
    refine ⟨_, ⟨_, hfetch, exec_of_no_access rfl hexec⟩, ⟨h.mem, h.writes, h.size⟩, rfl, ?_⟩
    rw [if_neg hend]

/-- The two additions lead to the registers of the next round. -/
lemma registers_next (m : Machine) (k : ℕ) :
    Function.update
        (Function.update (m.registers k) 10 (m.registers k 10 + (1 : BitVec 12).signExtend 64)) 12
        (Function.update (m.registers k) 10 (m.registers k 10 + (1 : BitVec 12).signExtend 64) 12
          + (-1 : BitVec 12).signExtend 64)
      = m.registers (k + 1) := by
  have hone : (1 : BitVec 12).signExtend 64 = 1 := by decide
  have hneg : (-1 : BitVec 12).signExtend 64 = -1 := by decide
  have h10 : m.registers k 10 = m.block + BitVec.ofNat 64 k := rfl
  have h12 : Function.update (m.registers k) 10 (m.registers k 10 + 1) 12
      = m.hart.x 12 - BitVec.ofNat 64 k := rfl
  have hup : m.block + BitVec.ofNat 64 k + 1 = m.block + BitVec.ofNat 64 (k + 1) := by
    rw [BitVec.add_assoc, BitVec.ofNat_add]
    rfl
  have hdown : m.hart.x 12 - BitVec.ofNat 64 k + -1 = m.hart.x 12 - BitVec.ofNat 64 (k + 1) := by
    rw [BitVec.ofNat_add, sub_add_eq, BitVec.sub_eq_add_neg (_ - _)]
    rfl
  rw [hone, hneg, h12, h10, hup, hdown]
  funext r
  simp only [registers, Function.update_apply]
  split_ifs <;> rfl

/-- **A round of the loop**: the block is filled, or the next round starts. -/
lemma fill_round (h₀ : m₀.FillReady) (hk : k < m₀.count) :
    Reaches Step (AtHead m₀ k) fun m => Done m₀ m ∨ (k + 1 < m₀.count ∧ AtHead m₀ (k + 1) m) := by
  intro m h
  obtain ⟨m₁, hstep₁, hfilled₁, hpc₁, hx₁⟩ := step_store h₀ h hk
  obtain ⟨m₂, hstep₂, hfilled₂, hpc₂, hx₂⟩ := step_add h₀ hfilled₁ hk (j := 1) rfl hpc₁
  obtain ⟨m₃, hstep₃, hfilled₃, hpc₃, hx₃⟩ := step_add h₀ hfilled₂ hk (j := 2) rfl hpc₂
  have hregs : m₃.hart.x = m₀.registers (k + 1) := by
    rw [hx₃, Hart.write, if_neg (by decide), hx₂, Hart.write, if_neg (by decide), hx₁]
    exact registers_next m₀ k
  obtain ⟨m₄, hstep₄, hfilled₄, hx₄, hpc₄⟩ := step_branch h₀ hfilled₃ hk hpc₃ (by
    rw [hregs]
    exact h₀.zero)
  refine ⟨4, m₄, .succ hstep₁ (.succ hstep₂ (.succ hstep₃ (.one hstep₄))), ?_⟩
  have hleft : m₃.hart.x 12 = m₀.hart.x 12 - BitVec.ofNat 64 (k + 1) := by
    rw [hregs]
    rfl
  rw [hleft] at hpc₄
  have hend : m₀.hart.x 12 - BitVec.ofNat 64 (k + 1) = 0 ↔ k + 1 = m₀.count := by
    have hlt := (m₀.hart.x 12).isLt
    unfold count at hk ⊢
    rw [← BitVec.toNat_inj, BitVec.toNat_sub, BitVec.toNat_ofNat]
    change _ = 0 ↔ _
    omega
  by_cases hlast : k + 1 = m₀.count
  · rw [if_pos (hend.mpr hlast)] at hpc₄
    exact Or.inl ⟨hlast ▸ hfilled₄, hpc₄, hx₄.trans (hlast ▸ hregs)⟩
  · rw [if_neg (mt hend.mp hlast)] at hpc₄
    exact Or.inr ⟨by omega, hfilled₄, hpc₄, hx₄.trans hregs⟩

/-- **The loop fills the block**, and nothing else. -/
theorem fill_reaches (h₀ : m₀.FillReady) : Reaches Step (· = m₀) (Done m₀) := by
  have hloop := Reaches.loop (I := fun n m => ∃ k, k + n = m₀.count ∧ 0 < n ∧ AtHead m₀ k m)
    (Q := Done m₀) fun n => Reaches.exists_pre fun k => by
      rintro m ⟨hn, hpos, hm⟩
      obtain ⟨l, m', hsteps, hm'⟩ := fill_round h₀ (by omega) m hm
      refine ⟨l, m', hsteps, hm'.imp_right ?_⟩
      rintro ⟨hlt, hnext⟩
      exact ⟨n - 1, by omega, k + 1, by omega, by omega, hnext⟩
  refine (hloop m₀.count).consequence ?_ fun _ h => h
  rintro m rfl
  exact ⟨0, Nat.zero_add _, h₀.count_pos, atHead_zero m⟩

end Machine

end Riscv

namespace Vemu

open Loop Riscv Machine

namespace VEmu

/-! ## Three bytes -/

/-- One page of RAM, with the loop at its start. -/
def fillMemory : MMU :=
  (MMU.uniform 4096 (permExec ||| permRead ||| permWrite)).written 0
    (fillLoop.flatMap fun i => MMU.split 4 (i.encode.setWidth 64))

/-- An emulator that is about to fill three bytes at 0x800. -/
def filling : VEmu :=
  { onePage 0 0 with
    bus := { devices := none, ramSize := 4096, mmu := fillMemory }
    iregs := ((RegFile.new.storeReg 10 0x800).storeReg 11 0xAB).storeReg 12 3 }

lemma runs_filling : Runs (.bare .fuzz) filling.machine filling where
  intact := ⟨rfl, (MMU.backed_uniform (by decide) _).withContents _ _, rfl,
    InstructionDecoder.consistent_init⟩
  running := rfl
  machine := rfl

lemma rights_filling (a : U64) : (filling.machine.rights a).writes = true := by
  have hinit :
      (rightsOf (MMU.initialised (permExec ||| permRead ||| permWrite))).writes = true := by
    decide
  have hfull : (rightsOf (permExec ||| permRead ||| permWrite)).writes = true := by decide
  change (rightsOf (mapOn MMU.initialised (fun _ => permExec ||| permRead ||| permWrite) _ _
    a.toNat)).writes = true
  unfold mapOn
  split_ifs
  · exact hinit
  · exact hfull

lemma fillReady_filling : filling.machine.FillReady where
  aligned := rfl
  code := by
    intro j i hj
    have hlen : j < 4 := (List.getElem?_eq_some_iff.mp hj).1
    interval_cases j
    all_goals
      obtain rfl := Option.some.inj hj
      decide +kernel
  room := by decide
  size := by decide
  zero := rfl
  count_pos := by decide
  inside := by decide
  writes := fun _ _ => rights_filling _
  apart := by decide

/-- The emulator fills them. -/
theorem emulates_fill : ∃ n s', filling.run (.bare .fuzz) n = .ok (.next s')
    ∧ s'.bus.mmu.ram.data 0x801 = 0xAB := by
  obtain ⟨n, s', hrun, -, hdone⟩ := emulates rfl (fill_reaches fillReady_filling) runs_filling rfl
  exact ⟨n, s', hrun, (hdone.mem 0x801).trans (if_pos (by decide))⟩

end VEmu

end Vemu
