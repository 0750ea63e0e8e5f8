import Vemu.Refinement.Step
import Vemu.Riscv.Atomics

/-!
# The read-modify-write handlers

The eighteen handlers differ in the width, the operation and its signedness.  Each does what the
instruction set says of it, when the address is aligned and the guest may read and write the
bytes, unless the last of these bytes is the last byte of RAM; and each leaves registers and
memory alone when its load, its store or the handler itself reports an exception
(**`amoSemantics_iff`**).
-/

namespace Vemu

open Fallible Loop Riscv

/-! ## Stores that a device refuses -/

namespace Bus

variable {bus bus' : Bus} {addr data : U64} {sz : ℕ} {e : ReturnException}

/-- RAM, or a device that is accessed at this width. -/
def Takes (bus : Bus) (addr : U64) (sz : ℕ) : Prop :=
  bus.routesToRam addr = true
    ∨ sz = if inWindow clintBase clintSize addr || inWindow plicBase plicSize addr then 64 else 8

instance (bus : Bus) (addr : U64) (sz : ℕ) : Decidable (bus.Takes addr sz) :=
  inferInstanceAs (Decidable (_ ∨ _))

/-- A store that is taken reports nothing. -/
lemma store_of_takes (ht : bus.Takes addr sz) (h : bus.store addr data sz = .ok (e, bus')) :
    e = .NormalExecutionReturn := by
  by_cases hram : bus.routesToRam addr = true
  · rw [store_of_ram hram] at h
    obtain ⟨_, -, h⟩ := bind_eq_ok_iff.mp h
    exact (Prod.mk.inj (Except.ok.inj h)).1.symm
  · have hsz := ht.resolve_left hram
    cases hd : bus.devices with
    | none => simp [routesToRam, hd] at hram
    | some d =>
        simp only [store, hd, CLINT.store, PLIC.store, UART.store] at h
        split_ifs at h with h1 h64 h2 h64 h3 h8
        · exact (Prod.mk.inj (Except.ok.inj h)).1.symm
        · simp [h1, h64] at hsz
        · exact (Prod.mk.inj (Except.ok.inj h)).1.symm
        · simp [h2, h64] at hsz
        · exact (Prod.mk.inj (Except.ok.inj h)).1.symm
        · simp [h1, h2, h8] at hsz
        · simp [routesToRam, hd, h1, h2, h3] at hram

/-- A store that is not taken reports an access fault and changes nothing. -/
lemma store_of_not_takes (ht : ¬ bus.Takes addr sz) :
    bus.store addr data sz = .ok (.StoreAMOAccessFault, bus) := by
  obtain ⟨hram, hsz⟩ := not_or.mp ht
  cases hd : bus.devices with
  | none => simp [routesToRam, hd] at hram
  | some d =>
      have hsame : { bus with devices := some d } = bus := by rw [← hd]
      simp only [store, hd, CLINT.store, PLIC.store, UART.store]
      split_ifs with h1 h64 h2 h64 h3 h8
      · simp [h1, h64] at hsz
      · rw [hsame]
      · simp [h2, h64] at hsz
      · rw [hsame]
      · simp [h1, h2, h8] at hsz
      · rw [hsame]
      · simp [routesToRam, hd, h1, h2, h3] at hram

end Bus

namespace VEmu

variable {host : Host} {s s' : VEmu} {sz n : ℕ} {e : ReturnException}

/-! ## The specification -/

inductive AmoWidth
  | word | double
  deriving DecidableEq

def AmoWidth.bytes : AmoWidth → ℕ
  | .word => 4
  | .double => 8

def rmwName : RmwOp → AmoWidth → IName
  | .SWAP, .word => .AMOSWAPW
  | .ADD, .word => .AMOADDW
  | .XOR, .word => .AMOXORW
  | .AND, .word => .AMOANDW
  | .OR, .word => .AMOORW
  | .MIN, .word => .AMOMINW
  | .MAX, .word => .AMOMAXW
  | .MINU, .word => .AMOMINUW
  | .MAXU, .word => .AMOMAXUW
  | .SWAP, .double => .AMOSWAPD
  | .ADD, .double => .AMOADDD
  | .XOR, .double => .AMOXORD
  | .AND, .double => .AMOANDD
  | .OR, .double => .AMOORD
  | .MIN, .double => .AMOMIND
  | .MAX, .double => .AMOMAXD
  | .MINU, .double => .AMOMINUD
  | .MAXU, .double => .AMOMAXUD

/-- The address is aligned, in RAM, readable, initialised and writable. -/
structure AmoAdmitted (s : VEmu) (n : ℕ) : Prop where
  aligned : (s.loadReg s.rs1).toNat % n = 0
  readable : s.Admitted ⟨s.loadReg s.rs1, n, false⟩
  writable : s.Admitted ⟨s.loadReg s.rs1, n, true⟩

/-- **What is asked of a read-modify-write handler** in a state. -/
structure AmoSemantics (host : Host) (op : RmwOp) (w : AmoWidth) (s : VEmu) : Prop where
  performs : AmoAdmitted s w.bytes →
    ∃ s', handler host (rmwName op w) s = .ok (.NormalExecutionReturn, s')
      ∧ s'.hart = s.hart.amo op w.bytes s.rd s.rs1 s.rs2
  /-- What the load reports is reported, and everything stays as it was. -/
  load_refused : (s.loadReg s.rs1).toNat % w.bytes = 0 → ∀ v e s₁,
    s.load (s.loadReg s.rs1) (8 * w.bytes) = .ok ((v, e), s₁) → e ≠ .NormalExecutionReturn →
      handler host (rmwName op w) s = .ok (e, s)
  /-- After a load that reports nothing, what the store reports, and everything stays as it was. -/
  store_refused : (s.loadReg s.rs1).toNat % w.bytes = 0 → ∀ v s₁ data e s₂,
    s.load (s.loadReg s.rs1) (8 * w.bytes) = .ok ((v, .NormalExecutionReturn), s₁) →
      s₁.store (s.loadReg s.rs1) data (8 * w.bytes) = .ok (e, s₂) → e ≠ .NormalExecutionReturn →
        handler host (rmwName op w) s = .ok (e, s)
  /-- Whatever exception is reported leaves everything as it was. -/
  precise : ∀ e s', handler host (rmwName op w) s = .ok (e, s') → e ≠ .NormalExecutionReturn →
    s' = s

/-! ## One handler -/

/-- A store that reports an exception was made to a device, which did nothing. -/
lemma store_exception {bus bus' : Bus} {addr data : U64}
    (h : bus.store addr data sz = .ok (e, bus')) (he : e ≠ .NormalExecutionReturn) : bus' = bus := by
  by_cases ht : bus.Takes addr sz
  · exact absurd (Bus.store_of_takes ht h) he
  · rw [Bus.store_of_not_takes ht] at h
    exact (Prod.mk.inj (Except.ok.inj h)).2.symm

/-- A load of more than a byte changes nothing; only a byte is taken from the serial port. -/
lemma load_unchanged {addr : U64} {r : U64 × ReturnException} (hsz : sz ≠ 8)
    (h : s.load addr sz = .ok (r, s')) : s' = s := by
  obtain ⟨⟨r', bus⟩, hbus, h⟩ := bind_eq_ok_iff.mp h
  obtain rfl := Bus.load_frame hsz hbus
  exact (Prod.mk.inj (Except.ok.inj h)).2.symm

/-- **An exception** of a read-modify-write leaves everything as it was. -/
lemma amo_precise {old : U64 → U64} {f : U64 → U64 → U64} (hsz : sz ≠ 8)
    (h : amo sz old f s = .ok (e, s')) (he : e ≠ .NormalExecutionReturn) : s' = s := by
  unfold amo at h
  dsimp only at h
  split_ifs at h
  · exact (Prod.mk.inj (Except.ok.inj h)).2.symm
  · obtain ⟨⟨⟨tmp, exp⟩, s₁⟩, hload, h⟩ := bind_eq_ok_iff.mp h
    obtain rfl := load_unchanged hsz hload
    dsimp only at h
    split_ifs at h
    · exact (Prod.mk.inj (Except.ok.inj h)).2.symm
    · obtain ⟨⟨exp', s₂⟩, hstore, h⟩ := bind_eq_ok_iff.mp h
      obtain ⟨bus', hbus', rfl⟩ := store_frame hstore
      dsimp only at h
      split_ifs at h with hexp
      · obtain ⟨rfl, rfl⟩ := Prod.mk.inj (Except.ok.inj h)
        rw [store_exception hbus' he]
      · exact absurd (Prod.mk.inj (Except.ok.inj h)).1.symm he

lemma aligned_of_mod {addr : U64} (h : addr.toNat % n = 0) (hsz : sz = 8 * n) :
    aligned addr sz = true := by
  rw [aligned, hsz, Nat.mul_div_cancel_left n (by decide)]
  exact decide_eq_true h

lemma aligned_of_admitted (h : AmoAdmitted s n) (hsz : sz = 8 * n) :
    aligned (s.loadReg s.rs1) sz = true := aligned_of_mod h.aligned hsz

/-- **A load that reports an exception** ends the read-modify-write. -/
lemma amo_load_refused (old : U64 → U64) (f : U64 → U64 → U64) {v : U64} {s₁ : VEmu} (hsz : sz ≠ 8)
    (hal : aligned (s.loadReg s.rs1) sz = true)
    (hload : s.load (s.loadReg s.rs1) sz = .ok ((v, e), s₁)) (he : e ≠ .NormalExecutionReturn) :
    amo sz old f s = .ok (e, s) := by
  obtain rfl := load_unchanged hsz hload
  rw [amo]
  simp only [hal, Bool.not_true, Bool.false_eq_true, if_false, hload, ok_bind]
  rw [if_pos he]
  rfl

/-- **So does a store**: a device refuses it whatever the datum. -/
lemma amo_store_refused (old : U64 → U64) (f : U64 → U64 → U64) {v data : U64} {s₁ s₂ : VEmu}
    (hsz : sz ≠ 8) (hal : aligned (s.loadReg s.rs1) sz = true)
    (hload : s.load (s.loadReg s.rs1) sz = .ok ((v, .NormalExecutionReturn), s₁))
    (hstore : s₁.store (s.loadReg s.rs1) data sz = .ok (e, s₂)) (he : e ≠ .NormalExecutionReturn) :
    amo sz old f s = .ok (e, s) := by
  obtain rfl := load_unchanged hsz hload
  obtain ⟨bus, hbus, rfl⟩ := store_frame hstore
  have htakes : ¬ s₁.bus.Takes (s₁.loadReg s₁.rs1) sz := fun ht => he (Bus.store_of_takes ht hbus)
  have hrefused : ∀ datum, s₁.store (s₁.loadReg s₁.rs1) datum sz = .ok (e, s₁) := by
    intro datum
    rw [Bus.store_of_not_takes htakes] at hbus
    obtain ⟨rfl, -⟩ := Prod.mk.inj (Except.ok.inj hbus)
    rw [store, Bus.store_of_not_takes htakes]
    rfl
  rw [amo]
  simp only [hal, Bool.not_true, Bool.false_eq_true, if_false, hload, ok_bind, ne_eq,
    not_true_eq_false, hrefused]
  rw [if_pos he]
  rfl

/-- **An admitted read-modify-write** that stays clear of the end of RAM. -/
lemma amo_performs (old : U64 → U64) (f : U64 → U64 → U64) {v : U64} (hm : s.bus.mmu.Backed)
    (hsz : MMU.sizeBytes sz = some n) (hbits : sz = 8 * n) (h : AmoAdmitted s n)
    (hend : ¬ s.AtRamEnd ⟨s.loadReg s.rs1, n, false⟩)
    (hf : ∀ k < n, (f (BitVec.ofNat 64 (s.hart.read (s.loadReg s.rs1) n)) (s.loadReg s.rs2)
      >>> (8 * k)).setWidth 8 = v.extractLsb' (8 * k) 8) :
    ∃ s', amo sz old f s = .ok (.NormalExecutionReturn, s')
      ∧ s'.hart = { s.hart with
          x := s.hart.write s.rd (old (BitVec.ofNat 64 (s.hart.read (s.loadReg s.rs1) n)))
          mem := s.hart.stored (s.loadReg s.rs1) n v } := by
  obtain ⟨s₁, hstore, hhart⟩ := store_admitted hm hsz h.writable hend hf
  obtain ⟨bus, -, rfl⟩ := store_frame hstore
  refine ⟨({ s with bus := bus }).storeReg s.rd
    (old (BitVec.ofNat 64 (s.hart.read (s.loadReg s.rs1) n))), ?_, ?_⟩
  · rw [amo]
    simp only [aligned_of_admitted h hbits, Bool.not_true, Bool.false_eq_true, if_false,
      load_admitted hm hsz h.readable hend, ok_bind, hstore, not_true_eq_false, ne_eq]
    rfl
  · have hmem : ({ s with bus := bus }).hart.mem = s.hart.stored (s.loadReg s.rs1) n v :=
      congrArg Hart.mem hhart
    exact Hart.ext (x_storeReg ..) rfl hmem

lemma amo_at_end {old : U64 → U64} {f : U64 → U64 → U64} (hsz : MMU.sizeBytes sz = some n)
    (hbits : sz = 8 * n) (h : AmoAdmitted s n) (hend : s.AtRamEnd ⟨s.loadReg s.rs1, n, false⟩) :
    amo sz old f s = .error .assertFailed := by
  rw [amo]
  simp only [aligned_of_admitted h hbits, Bool.not_true, Bool.false_eq_true, if_false,
    load_at_end hsz h.readable hend, error_bind]

/-! ## Operations -/

/-- The operations as the source has them. -/
def RmwOp.computed {w : ℕ} : RmwOp → BitVec w → BitVec w → BitVec w
  | .SWAP, _, b => b
  | .ADD, a, b => a + b
  | .XOR, a, b => a ^^^ b
  | .AND, a, b => a &&& b
  | .OR, a, b => a ||| b
  | .MIN, a, b => if a.slt b then a else b
  | .MAX, a, b => if b.slt a then a else b
  | .MINU, a, b => if a < b then a else b
  | .MAXU, a, b => if b < a then a else b

lemma computed_eq_result {w : ℕ} (op : RmwOp) (a b : BitVec w) :
    RmwOp.computed op a b = op.result a b := by
  cases op with
  | SWAP | ADD | XOR | AND | OR => rfl
  | MIN =>
      simp only [RmwOp.computed, RmwOp.result, BitVec.slt, decide_eq_true_eq]
      split_ifs with h1 h2 h2
      · rfl
      · omega
      · exact BitVec.eq_of_toInt_eq (by omega)
      · rfl
  | MAX =>
      simp only [RmwOp.computed, RmwOp.result, BitVec.slt, decide_eq_true_eq]
      split_ifs with h1 h2 h2
      · omega
      · rfl
      · rfl
      · omega
  | MINU =>
      simp only [RmwOp.computed, RmwOp.result, BitVec.lt_def]
      split_ifs with h1 h2 h2
      · rfl
      · omega
      · exact BitVec.eq_of_toNat_eq (by omega)
      · rfl
  | MAXU =>
      simp only [RmwOp.computed, RmwOp.result, BitVec.lt_def]
      split_ifs with h1 h2 h2
      · omega
      · rfl
      · rfl
      · omega

/-- The bytes of a word do not depend on how it is extended. -/
lemma byte_signExtend (x : U32) (k : ℕ) (hk : k < 4) :
    (x.signExtend 64 >>> (8 * k)).setWidth 8 = (x.setWidth 64).extractLsb' (8 * k) 8 := by
  apply BitVec.eq_of_getLsbD_eq
  intro i hi
  have hlt : 8 * k + i < 32 := by omega
  have hlt' : 8 * k + i < 64 := by omega
  rw [BitVec.getLsbD_setWidth, BitVec.getLsbD_ushiftRight, BitVec.getLsbD_signExtend,
    BitVec.getLsbD_extractLsb', BitVec.getLsbD_setWidth]
  simp [hi, hlt, hlt']

lemma oldWord_read (r : ℕ) : oldWord (BitVec.ofNat 64 r) = (BitVec.ofNat (8 * 4) r).signExtend 64 := by
  rw [oldWord, BitVec.setWidth_ofNat_of_le (by decide)]

lemma handler_rmw_word (host : Host) (op : RmwOp) :
    ∃ f, handler host (rmwName op .word) = amo 32 oldWord f
      ∧ ∀ r b, ∀ k < 4, (f (BitVec.ofNat 64 r) b >>> (8 * k)).setWidth 8
        = ((op.result (BitVec.ofNat (8 * 4) r) (b.setWidth (8 * 4))).setWidth 64).extractLsb' (8 * k) 8 := by
  by_cases hop : op = .SWAP
  · subst hop
    exact ⟨fun _ b => (b.setWidth 32).signExtend 64, rfl, fun r b k hk => byte_signExtend _ k hk⟩
  · refine ⟨fun tmp b => (RmwOp.computed op (tmp.setWidth 32) (b.setWidth 32)).setWidth 64, ?_, ?_⟩
    · cases op <;> first | rfl | exact absurd rfl hop
    · intro r b k _
      dsimp only
      rw [byte_unmasked, computed_eq_result, BitVec.setWidth_ofNat_of_le (by decide)]

lemma handler_rmw_double (host : Host) (op : RmwOp) :
    handler host (rmwName op .double) = amo 64 id (RmwOp.computed op) := by
  cases op <;> rfl

/-- On double words nothing is extended. -/
lemma amo_double (h : Hart) (op : RmwOp) (rd rs1 rs2 : Reg) :
    h.amo op 8 rd rs1 rs2 = { h with
      x := h.write rd (BitVec.ofNat 64 (h.read (h.x rs1) 8))
      mem := h.stored (h.x rs1) 8
        (op.result (BitVec.ofNat 64 (h.read (h.x rs1) 8)) (h.x rs2)) } := by
  have hold : (h.word (h.x rs1) 8).signExtend 64 = BitVec.ofNat 64 (h.read (h.x rs1) 8) :=
    BitVec.signExtend_eq _
  have hoperand : (h.x rs2).setWidth (8 * 8) = h.x rs2 := BitVec.setWidth_eq _
  have hresult : (op.result (h.word (h.x rs1) 8) ((h.x rs2).setWidth (8 * 8))).setWidth 64
      = op.result (BitVec.ofNat 64 (h.read (h.x rs1) 8)) (h.x rs2) := by
    rw [hoperand]
    exact BitVec.setWidth_eq _
  exact Hart.ext (congrArg (h.write rd) hold) rfl (congrArg (h.stored (h.x rs1) 8) hresult)

/-- **A read-modify-write handler** does what the instruction set says, where it may. -/
lemma rmw_performs (host : Host) (op : RmwOp) (w : AmoWidth) (hm : s.bus.mmu.Backed)
    (h : AmoAdmitted s w.bytes) (hend : ¬ s.AtRamEnd ⟨s.loadReg s.rs1, w.bytes, false⟩) :
    ∃ s', handler host (rmwName op w) s = .ok (.NormalExecutionReturn, s')
      ∧ s'.hart = s.hart.amo op w.bytes s.rd s.rs1 s.rs2 := by
  cases w with
  | word =>
      obtain ⟨f, hf, hbytes⟩ := handler_rmw_word host op
      obtain ⟨s', hs', hhart⟩ := amo_performs oldWord f hm rfl rfl h hend
        (fun k hk => hbytes (s.hart.read (s.loadReg s.rs1) 4) (s.loadReg s.rs2) k hk)
      refine ⟨s', hf ▸ hs', hhart.trans ?_⟩
      rw [oldWord_read]
      rfl
  | double =>
      obtain ⟨s', hs', hhart⟩ := amo_performs id (RmwOp.computed op) hm rfl rfl h hend
        (fun k _ => byte_unmasked _ k)
      refine ⟨s', handler_rmw_double host op ▸ hs', hhart.trans ?_⟩
      rw [computed_eq_result]
      exact (amo_double ..).symm

lemma rmw_at_end (host : Host) (op : RmwOp) (w : AmoWidth) (h : AmoAdmitted s w.bytes)
    (hend : s.AtRamEnd ⟨s.loadReg s.rs1, w.bytes, false⟩) :
    handler host (rmwName op w) s = .error .assertFailed := by
  cases w with
  | word =>
      obtain ⟨f, hf, -⟩ := handler_rmw_word host op
      rw [hf]
      exact amo_at_end rfl rfl h hend
  | double =>
      rw [handler_rmw_double]
      exact amo_at_end rfl rfl h hend

/-- Each of the handlers is a read-modify-write at its width. -/
lemma handler_rmw (host : Host) (op : RmwOp) (w : AmoWidth) :
    ∃ old f, handler host (rmwName op w) = amo (8 * w.bytes) old f := by
  cases w with
  | word =>
      obtain ⟨f, hf, -⟩ := handler_rmw_word host op
      exact ⟨oldWord, f, hf⟩
  | double => exact ⟨id, RmwOp.computed op, handler_rmw_double host op⟩

lemma bits_ne_eight (w : AmoWidth) : 8 * w.bytes ≠ 8 := by cases w <;> decide

lemma rmw_precise {op : RmwOp} {w : AmoWidth} (e : ReturnException) (s' : VEmu)
    (h : handler host (rmwName op w) s = .ok (e, s')) (he : e ≠ .NormalExecutionReturn) :
    s' = s := by
  obtain ⟨old, f, hf⟩ := handler_rmw host op w
  exact amo_precise (bits_ne_eight w) (hf ▸ h) he

/-- **The read-modify-write handlers** meet their specification exactly where the bytes do not end
with RAM. -/
theorem amoSemantics_iff (host : Host) (op : RmwOp) (w : AmoWidth) (s : VEmu)
    (hm : s.bus.mmu.Backed) :
    AmoSemantics host op w s
      ↔ (AmoAdmitted s w.bytes → ¬ s.AtRamEnd ⟨s.loadReg s.rs1, w.bytes, false⟩) := by
  constructor
  · intro h hadm hend
    obtain ⟨s', hs', -⟩ := h.performs hadm
    rw [rmw_at_end host op w hadm hend] at hs'
    cases hs'
  · intro h
    obtain ⟨old, f, hf⟩ := handler_rmw host op w
    refine ⟨fun hadm => rmw_performs host op w hm hadm (h hadm), fun hal v e s₁ hload he => ?_,
      fun hal v s₁ data e s₂ hload hstore he => ?_, rmw_precise⟩
    · rw [hf]
      exact amo_load_refused old f (bits_ne_eight w) (aligned_of_mod hal rfl) hload he
    · rw [hf]
      exact amo_store_refused old f (bits_ne_eight w) (aligned_of_mod hal rfl) hload hstore he

/-! ## A word in the middle of RAM, and the last one -/

/-- `amoadd.w x1, x3, (x2)`, in a page of RAM. -/
def addingHart (x2 : U64) : VEmu :=
  { onePage 0 x2 with
    currInstr := ⟨.R, .AMOADDW, { Fields.zero with rd := 1, rs1 := 2, rs2 := 3 }, ""⟩ }

lemma backed_addingHart (x2 : U64) : (addingHart x2).bus.mmu.Backed := (intact_onePage 0 x2).memory

lemma amoAdmitted_addingHart {x2 : U64} (haligned : x2.toNat % 4 = 0) (hin : x2.toNat + 4 ≤ 4096) :
    AmoAdmitted (addingHart x2) 4 where
  aligned := haligned
  readable := ⟨rfl, hin, fun k _ => by
    rw [show (addingHart x2).permAt _ k = _ from permAt_onePage 0 x2 _ k, if_neg (by simp)]
    decide⟩
  writable := ⟨rfl, hin, fun k _ => by
    rw [show (addingHart x2).permAt _ k = _ from permAt_onePage 0 x2 _ k, if_pos rfl]
    decide⟩

theorem amoSemantics_first_word : AmoSemantics (.bare .fuzz) .ADD .word (addingHart 0) :=
  (amoSemantics_iff (.bare .fuzz) .ADD .word (addingHart 0) (backed_addingHart 0)).mpr
    fun _ => by decide

/-- The last word of RAM cannot be changed. -/
theorem not_amoSemantics_last_word :
    AmoAdmitted (addingHart 4092) 4 ∧ ¬ AmoSemantics (.bare .fuzz) .ADD .word (addingHart 4092) := by
  have hadm : AmoAdmitted (addingHart 4092) 4 := amoAdmitted_addingHart (by decide) (by decide)
  refine ⟨hadm, fun h => ?_⟩
  obtain ⟨s', hs', -⟩ := h.performs hadm
  rw [rmw_at_end (.bare .fuzz) .ADD .word hadm (by decide)] at hs'
  cases hs'

end VEmu

end Vemu
