import Vemu.Refinement.Step

/-!
# Load-reserved and the plain loads

`LR.W` and `LR.D` are written apart from `LW` and `LD`.  The double words agree
with each other; of the words, `LW` extends the sign and `LR.W` does not.  So the two leave the
same registers and the same memory exactly if the register is not written or the word is not
negative (**`loadReserved_agrees_iff`**).
-/

namespace Vemu

open Fallible

/-! ## Words -/

/-- A number of 32 bits is the extension of its lower half if bit 31 is clear. -/
lemma signExtend_setWidth_eq_self_iff {v : U64} (h : v.toNat < 2 ^ 32) :
    (v.setWidth 32).signExtend 64 = v ↔ v.getLsbD 31 = false := by
  have hhigh : v.getLsbD 63 = false := by
    rw [← BitVec.testBit_toNat]
    exact Nat.testBit_lt_two_pow (lt_trans h (by decide))
  have hmsb : (v.setWidth 32).msb = v.getLsbD 31 := by
    rw [BitVec.msb_eq_getLsbD_last, BitVec.getLsbD_setWidth]
    simp
  constructor
  · intro heq
    rw [← heq, BitVec.getLsbD_signExtend] at hhigh
    simpa [hmsb] using hhigh
  · intro hbit
    rw [BitVec.signExtend_eq_setWidth_of_msb_false (hmsb.trans hbit)]
    apply BitVec.eq_of_toNat_eq
    rw [BitVec.toNat_setWidth, BitVec.toNat_setWidth, Nat.mod_eq_of_lt h, Nat.mod_eq_of_lt v.isLt]

namespace MMU

variable {m : MMU} {addr v : U64} {e : ReturnException}

lemma length_of_readTo {len : U64} {bytes : List U8} (h : m.readTo addr len = .ok (bytes, e)) :
    bytes.length = len.toNat := by
  rw [readTo, bind_eq_ok_iff] at h
  obtain ⟨_, -, h⟩ := h
  rw [bind_eq_ok_iff] at h
  obtain ⟨_, -, h⟩ := h
  obtain ⟨perms, -, h⟩ := bind_eq_ok_iff.mp h
  obtain ⟨bytes', hloop, h⟩ := bind_eq_ok_iff.mp h
  obtain ⟨rfl, -⟩ := Prod.mk.inj (Except.ok.inj h)
  refine foldlM_invariant (fun b : List U8 => b.length = len.toNat) ?_ _ _ _ (by simp) hloop
  intro b i b' hb hstep
  obtain ⟨x, -, hstep⟩ := bind_eq_ok_iff.mp hstep
  rw [← Except.ok.inj hstep, List.length_set, hb]

/-- A word has 32 bits. -/
lemma load_word_lt (h : m.load addr 32 = .ok (v, e)) : v.toNat < 2 ^ 32 := by
  rw [load_eq rfl, loadBytes, bind_eq_ok_iff] at h
  obtain ⟨⟨bytes, exp⟩, hread, h⟩ := h
  obtain ⟨rfl, -⟩ := Prod.mk.inj (Except.ok.inj h)
  have hlen : bytes.length = 4 := length_of_readTo hread
  have hlt := LittleEndian.value_lt bytes
  rw [hlen] at hlt
  rw [toNat_assemble (by omega)]
  exact hlt

end MMU

lemma Bus.load_word_lt {bus bus' : Bus} {addr v : U64} {e : ReturnException}
    (h : bus.load addr 32 = .ok ((v, e), bus')) : v.toNat < 2 ^ 32 := by
  rw [Bus.load_word] at h
  split_ifs at h
  · obtain ⟨⟨w, exp⟩, hload, h⟩ := bind_eq_ok_iff.mp h
    obtain ⟨rfl, -⟩ := Prod.mk.inj (Prod.mk.inj (Except.ok.inj h)).1
    exact MMU.load_word_lt hload
  · rw [← (Prod.mk.inj (Prod.mk.inj (Except.ok.inj h)).1).1]
    decide

/-! ## Registers -/

namespace RegFile

lemma eq_of_data {r r' : RegFile} (h : r.data = r'.data) : r = r' := by
  cases r
  cases r'
  exact RegFile.mk.injEq .. ▸ h

lemma storeReg_storeReg (r : RegFile) (idx : Reg) (v v' : U64) :
    (r.storeReg idx v).storeReg idx v' = r.storeReg idx v' := by
  apply eq_of_data
  rw [data_storeReg, data_storeReg, data_storeReg]
  split_ifs
  · rfl
  · rw [Function.update_idem]

lemma loadReg_storeReg_self (r : RegFile) {idx : Reg} (h : idx ≠ 0) (v : U64) :
    (r.storeReg idx v).loadReg idx = v := by
  rw [loadReg, data_storeReg, if_neg h, Function.update_self]

lemma storeReg_eq_storeReg_iff {r : RegFile} {idx : Reg} {v v' : U64} :
    r.storeReg idx v = r.storeReg idx v' ↔ idx ≠ 0 → v = v' := by
  constructor
  · intro h hidx
    rw [← r.loadReg_storeReg_self hidx v, h, r.loadReg_storeReg_self hidx]
  · intro h
    by_cases hidx : idx = 0
    · rw [storeReg, storeReg, dif_pos hidx, dif_pos hidx]
    · rw [h hidx]

end RegFile

namespace VEmu

variable {host : Host} {s : VEmu} {ins : Instruction}

/-! ## The two handlers -/

/-- The widths of load-reserved. -/
inductive ReservedWidth
  | word | double
  deriving DecidableEq

namespace ReservedWidth

def bits : ReservedWidth → ℕ
  | .word => 32
  | .double => 64

def reserved : ReservedWidth → IName
  | .word => .LRW
  | .double => .LRD

def plain : ReservedWidth → IName
  | .word => .LW
  | .double => .LD

end ReservedWidth

/-- The plain load of the same registers, without an offset. -/
structure PlainLoad (s : VEmu) (ins : Instruction) : Prop where
  rd : ins.f.rd = s.rd
  rs1 : ins.f.rs1 = s.rs1
  imm : ins.f.imm = 0

/-- A load of that many bits reports no exception, if it comes back at all. -/
def Readable (s : VEmu) (addr : U64) (sz : ℕ) : Prop :=
  ∀ v e bus, s.bus.load addr sz = .ok ((v, e), bus) → e = .NormalExecutionReturn

/-- The same registers, memory and devices are left, or the process ends in the same way. -/
def SameLoad : Except Fault (ReturnException × VEmu) → Except Fault (ReturnException × VEmu) → Prop
  | .ok (_, s), .ok (_, t) => s.iregs = t.iregs ∧ s.bus = t.bus
  | .error fault, .error fault' => fault = fault'
  | _, _ => False

lemma loadReserved_of_ok {sz : ℕ} {v : U64} {bus : Bus} (ha : aligned (s.loadReg s.rs1) sz = true)
    (h : s.bus.load (s.loadReg s.rs1) sz = .ok ((v, .NormalExecutionReturn), bus)) :
    loadReserved sz s = normal (({ s with bus := bus }).storeReg s.rd v) := by
  rw [loadReserved]
  simp only [ha, Bool.not_true, Bool.false_eq_true, if_false, load, h]
  rfl

lemma loadReserved_of_error {sz : ℕ} {fault : Fault} (ha : aligned (s.loadReg s.rs1) sz = true)
    (h : s.bus.load (s.loadReg s.rs1) sz = .error fault) : loadReserved sz s = .error fault := by
  rw [loadReserved]
  simp only [ha, Bool.not_true, Bool.false_eq_true, if_false, load, h]
  rfl

lemma PlainLoad.addr (h : PlainLoad s ins) :
    ({ s with currInstr := ins }).loadReg ins.f.rs1 + ins.f.imm.signExtend 64
      = s.loadReg s.rs1 := by
  rw [h.imm, h.rs1, show (0 : U32).signExtend 64 = 0 from rfl]
  exact BitVec.add_zero _

lemma loadUnsigned_of_ok {sz : ℕ} {v : U64} {bus : Bus} (hins : PlainLoad s ins)
    (h : s.bus.load (s.loadReg s.rs1) sz = .ok ((v, .NormalExecutionReturn), bus)) :
    loadUnsigned sz { s with currInstr := ins }
      = normal (({ s with currInstr := ins, bus := bus }).storeReg s.rd v) := by
  have haddr : ({ s with currInstr := ins }).loadReg ({ s with currInstr := ins }).rs1
      + ({ s with currInstr := ins }).imm = s.loadReg s.rs1 := hins.addr
  rw [loadUnsigned]
  simp only [haddr, load, h, ← hins.rd]
  rfl

lemma loadUnsigned_of_error {sz : ℕ} {fault : Fault} (hins : PlainLoad s ins)
    (h : s.bus.load (s.loadReg s.rs1) sz = .error fault) :
    loadUnsigned sz { s with currInstr := ins } = .error fault := by
  have haddr : ({ s with currInstr := ins }).loadReg ({ s with currInstr := ins }).rs1
      + ({ s with currInstr := ins }).imm = s.loadReg s.rs1 := hins.addr
  rw [loadUnsigned]
  simp only [haddr, load, h]
  rfl

/-- Without a sign to extend, the two do the same. -/
lemma sameLoad_unsigned {sz : ℕ} (hins : PlainLoad s ins)
    (ha : aligned (s.loadReg s.rs1) sz = true) (hread : s.Readable (s.loadReg s.rs1) sz) :
    SameLoad (loadReserved sz s) (loadUnsigned sz { s with currInstr := ins }) := by
  cases hload : s.bus.load (s.loadReg s.rs1) sz with
  | error fault =>
      rw [loadReserved_of_error ha hload, loadUnsigned_of_error hins hload]
      rfl
  | ok r =>
      obtain ⟨⟨v, e⟩, bus⟩ := r
      obtain rfl := hread v e bus hload
      rw [loadReserved_of_ok ha hload, loadUnsigned_of_ok hins hload]
      exact ⟨rfl, rfl⟩

/-- With one, they do the same where the extension of the word is the word. -/
lemma sameLoad_signed_iff (hins : PlainLoad s ins) (ha : aligned (s.loadReg s.rs1) 32 = true)
    (hread : s.Readable (s.loadReg s.rs1) 32) :
    SameLoad (loadReserved 32 s) (loadSigned 32 (loadUnsigned 32) { s with currInstr := ins })
      ↔ (s.rd ≠ 0 → ∀ v e bus,
          s.bus.load (s.loadReg s.rs1) 32 = .ok ((v, e), bus) → v.getLsbD 31 = false) := by
  rw [loadSigned]
  cases hload : s.bus.load (s.loadReg s.rs1) 32 with
  | error fault =>
      rw [loadReserved_of_error ha hload, loadUnsigned_of_error hins hload]
      refine iff_of_true rfl fun _ v e bus heq => ?_
      cases heq
  | ok r =>
      obtain ⟨⟨v, e⟩, bus⟩ := r
      obtain rfl := hread v e bus hload
      rw [loadReserved_of_ok ha hload, loadUnsigned_of_ok hins hload]
      have hregs : ∀ x, ((s.iregs.storeReg s.rd v).storeReg s.rd x) = s.iregs.storeReg s.rd x :=
        fun x => RegFile.storeReg_storeReg ..
      change s.iregs.storeReg s.rd v = (s.iregs.storeReg s.rd v).storeReg ins.f.rd
          ((((s.iregs.storeReg s.rd v).loadReg ins.f.rd).setWidth 32).signExtend 64) ∧ bus = bus ↔ _
      rw [and_iff_left rfl, hins.rd, hregs, RegFile.storeReg_eq_storeReg_iff]
      refine forall_congr' fun hrd => ?_
      rw [RegFile.loadReg_storeReg_self _ hrd, eq_comm,
        signExtend_setWidth_eq_self_iff (Bus.load_word_lt hload)]
      constructor
      · intro hbit v' e' bus' heq
        obtain rfl := (Prod.mk.inj (Prod.mk.inj (Except.ok.inj heq)).1).1
        exact hbit
      · exact fun h => h v .NormalExecutionReturn bus rfl

/-- **Load-reserved agrees with the plain load** of its width, except on a negative word. -/
theorem loadReserved_agrees_iff (host : Host) (w : ReservedWidth) (s : VEmu) (ins : Instruction)
    (hins : PlainLoad s ins) (ha : aligned (s.loadReg s.rs1) w.bits = true)
    (hread : s.Readable (s.loadReg s.rs1) w.bits) :
    SameLoad (handler host w.reserved s) (handler host w.plain { s with currInstr := ins })
      ↔ (w = .word → s.rd ≠ 0 → ∀ v e bus,
          s.bus.load (s.loadReg s.rs1) 32 = .ok ((v, e), bus) → v.getLsbD 31 = false) := by
  cases w with
  | double => exact iff_of_true (sameLoad_unsigned hins ha hread) nofun
  | word =>
      have hiff := sameLoad_signed_iff hins ha hread
      exact ⟨fun h _ => hiff.mp h, fun h => hiff.mpr (h rfl)⟩

/-! ## A positive and a negative word -/

/-- The plain load of the word at address zero. -/
def plainLoad : Instruction := ⟨.I, .LW, { Fields.zero with rd := 1 }, ""⟩

/-- `lr.w x1, (x0)`, with the given word at address zero. -/
def reservingHart (w : U32) : VEmu :=
  { onePage w 0 with currInstr := ⟨.R, .LRW, { Fields.zero with rd := 1 }, ""⟩ }

lemma plainLoad_reservingHart (w : U32) : PlainLoad (reservingHart w) plainLoad := ⟨rfl, rfl, rfl⟩

lemma load_reservingHart {w : U32} {v : U64}
    (h : (onePageMemory w).load 0 32 = .ok (v, .NormalExecutionReturn)) :
    (reservingHart w).bus.load ((reservingHart w).loadReg (reservingHart w).rs1) 32
      = .ok ((v, .NormalExecutionReturn), (reservingHart w).bus) := by
  change ((onePageMemory w).load 0 32 >>= _) = _
  rw [h]
  rfl

lemma readable_reservingHart {w : U32} {v : U64}
    (h : (onePageMemory w).load 0 32 = .ok (v, .NormalExecutionReturn)) :
    (reservingHart w).Readable ((reservingHart w).loadReg (reservingHart w).rs1) 32 := by
  intro v' e bus heq
  rw [load_reservingHart h] at heq
  exact (Prod.mk.inj (Prod.mk.inj (Except.ok.inj heq)).1).2.symm

theorem loadReserved_agrees_one :
    SameLoad (handler (.bare .fuzz) .LRW (reservingHart 1))
      (handler (.bare .fuzz) .LW { reservingHart 1 with currInstr := plainLoad }) := by
  have hload : (onePageMemory 1).load 0 32 = .ok (1, .NormalExecutionReturn) := by decide +kernel
  refine (loadReserved_agrees_iff (.bare .fuzz) .word (reservingHart 1) plainLoad
    (plainLoad_reservingHart 1) rfl (readable_reservingHart hload)).mpr fun _ _ v e bus heq => ?_
  rw [load_reservingHart hload] at heq
  obtain rfl := (Prod.mk.inj (Prod.mk.inj (Except.ok.inj heq)).1).1
  decide

/-- A word with bit 31 set is another number after `LR.W` than after `LW`. -/
theorem not_loadReserved_agrees_negative :
    PlainLoad (reservingHart 0x80000000) plainLoad
      ∧ (reservingHart 0x80000000).Readable 0 32
      ∧ ¬ SameLoad (handler (.bare .fuzz) .LRW (reservingHart 0x80000000))
          (handler (.bare .fuzz) .LW { reservingHart 0x80000000 with currInstr := plainLoad }) := by
  have hload : (onePageMemory 0x80000000).load 0 32
      = .ok (0x80000000, .NormalExecutionReturn) := by decide +kernel
  have hread := readable_reservingHart hload
  refine ⟨plainLoad_reservingHart _, hread, fun h => ?_⟩
  have hbit := (sameLoad_signed_iff (plainLoad_reservingHart _) rfl hread).mp h (by decide) _ _ _
    (load_reservingHart hload)
  exact absurd hbit (by decide)

end VEmu

end Vemu
