import Vemu.Decoder.EncodeFloat
import Vemu.Handlers.Untouched
import Vemu.MMU.Uninitialised
import Vemu.MMU.Words
import Vemu.Refinement.Step
import Vemu.Softfloat.Handlers

/-!
# What the float registers hold

The registers are doubles and the guest works with floats, so every move between the two converts.
The conversions agree on everything but the NaNs: one that is signalling comes out quiet
(`toFloat_toDouble_eq`).  So a pattern that a guest moves into a register and out again is the
pattern it moved in exactly if it is not a signalling NaN (**`moves_iff`**).

A NaN is made quiet on the way in.  In every state that an emulator reaches, each register holds a
float as it comes from being widened (**`Reachable.holdsFloats`**), which reading it as a float does
not change any more: a register that is stored to RAM and loaded again is the register it was
(**`reload_register`**).
-/

namespace Vemu

open BinaryFloat Fallible Riscv

/-! ## Patterns -/

lemma convert_binary64_lt (x : U32) : (binary32.convert binary64 (unpack x)).mag < 2 ^ 63 := by
  rcases Nat.lt_trichotomy (unpack x).mag binary32.inf with hlt | heq | hgt
  · obtain ⟨m, hm, hconv, -⟩ := Format.convert_finite extends_binary64 hlt
    rw [hconv]
    exact lt_trans hm (by decide)
  · rw [Format.convert, if_neg heq.not_gt, if_pos heq]
    change binary64.inf < 2 ^ 63
    decide
  · rw [Format.convert, if_pos hgt]
    exact lt_of_lt_of_le (Format.convertNaN_lt _ (by decide) _) (by decide)

lemma unpack_toDouble (x : U32) : unpack (toDouble x) = binary32.convert binary64 (unpack x) :=
  unpack_pack (by decide) (convert_binary64_lt x)

/-- The bit that tells a quiet NaN from a signalling one. -/
def quietBit : U32 := 0x00400000

/-- A NaN that is made quiet. -/
def quieted (x : U32) : U32 := if isnan x then x ||| quietBit else x

lemma unpack_quieted (x : U32) : unpack (quieted x) = binary32.quieten (unpack x) := by
  unfold quieted Format.quieten
  cases hnan : isnan x with
  | false =>
      rw [if_neg (by simp), if_neg (isnan_eq_false_iff.mp hnan).not_gt]
  | true =>
      have hgt : binary32.inf < (unpack x).mag := by
        by_contra hle
        rw [isnan_eq_false_iff.mpr (Nat.le_of_not_lt hle)] at hnan
        cases hnan
      have hlt : (unpack x).mag < 2 ^ 31 := Nat.mod_lt _ (by decide)
      have hmag : (x ||| quietBit).toNat % 2 ^ 31
          = binary32.inf + binary32.quietFrac (unpack x).mag := by
        have hbit : quietBit.toNat % 2 ^ 31 = 2 ^ 22 := by decide
        have hsplit : (unpack x).mag = 2 ^ 23 * 255 + (unpack x).mag % 2 ^ 23 := by
          change 2139095040 < _ at hgt
          omega
        have hmod : x.toNat % 2 ^ 31 = 2 ^ 23 * 255 ||| (unpack x).mag % 2 ^ 23 := by
          rw [← Nat.two_pow_add_eq_or_of_lt (Nat.mod_lt _ (by decide)), ← hsplit]
          rfl
        have hfrac := Format.quietFrac_lt (F := binary32) (by decide) (unpack x).mag
        have hquiet : binary32.inf + binary32.quietFrac (unpack x).mag
            = 2 ^ 23 * 255 ||| binary32.quietFrac (unpack x).mag :=
          Nat.two_pow_add_eq_or_of_lt hfrac 255
        rw [BitVec.toNat_or, Nat.or_mod_two_pow, hbit, hmod, Nat.or_assoc, hquiet, Format.quietFrac,
          Nat.or_comm (_ % _)]
        rfl
      have hneg : (x ||| quietBit).msb = x.msb := by
        rw [BitVec.msb_or]
        have hbit : quietBit.msb = false := by decide
        rw [hbit, Bool.or_false]
      rw [if_pos rfl, if_pos hgt]
      exact congrArg₂ Datum.mk hneg hmag

/-- **Into a register and out again**: a NaN comes out quiet, everything else as it was. -/
theorem toFloat_toDouble_eq (x : U32) : toFloat (toDouble x) = quieted x := by
  rw [toFloat, unpack_toDouble, Format.convert_convert_eq extends_binary64 (by decide),
    ← unpack_quieted, pack_unpack (by decide)]

lemma toDouble_quieted (x : U32) : toDouble (quieted x) = toDouble x := by
  rw [toDouble, unpack_quieted, Format.convert_quieten extends_binary64 (by decide), toDouble]

/-- A NaN whose quiet bit is clear. -/
def isSignalling (x : U32) : Bool := isnan x && x &&& quietBit = 0

lemma quieted_eq_self_iff (x : U32) : quieted x = x ↔ isSignalling x = false := by
  have hbit : quietBit = BitVec.twoPow 32 22 := by decide
  rw [quieted, isSignalling, hbit, BitVec.and_twoPow]
  cases isnan x with
  | false => simp
  | true =>
      rw [if_pos rfl, Bool.true_and, decide_eq_false_iff_not]
      cases h : x.getLsbD 22 with
      | false =>
          refine iff_of_false (fun heq => ?_) (by simp)
          have hset : (x ||| BitVec.twoPow 32 22).getLsbD 22 = x.getLsbD 22 := by rw [heq]
          rw [BitVec.getLsbD_or, h, BitVec.getLsbD_twoPow] at hset
          simp at hset
      | true =>
          refine iff_of_true (BitVec.eq_of_getLsbD_eq fun i hi => ?_) (by decide)
          rw [BitVec.getLsbD_or, BitVec.getLsbD_twoPow]
          by_cases hi22 : 22 = i
          · subst hi22
            rw [h, Bool.true_or]
          · simp [hi22]

lemma toDouble_zero : toDouble 0 = 0 := by
  have hfinite : (unpack (0 : U32)).mag < binary32.inf := by decide
  obtain ⟨m, -, hconv, hscaled⟩ := Format.convert_finite extends_binary64 hfinite
  have hnone : scaled binary32.fracBits (unpack (0 : U32)).mag = 0 := scaled_eq_zero_iff.mpr rfl
  rw [hnone, Nat.zero_mul, scaled_eq_zero_iff] at hscaled
  rw [toDouble, hconv, hscaled]
  rfl

/-- The double of some float. -/
def HoldsFloat (d : U64) : Prop := ∃ x : U32, d = toDouble x

/-- Such a double is not changed by being read as a float. -/
lemma HoldsFloat.toDouble_toFloat {d : U64} (h : HoldsFloat d) : toDouble (toFloat d) = d := by
  obtain ⟨x, rfl⟩ := h
  rw [toFloat_toDouble_eq, toDouble_quieted]

namespace VEmu

variable {host : Host} {lib : SoftFloat} {s s' : VEmu} {e : ReturnException}

/-! ## What the handlers write -/

/-- What a handler keeps, next to what every handler does: it writes at most one float register, and
with a float. -/
structure KeepsFloats (s s' : VEmu) : Prop extends Keeps s s' where
  fregs : s'.fregs = s.fregs ∨ ∃ rd x, s'.fregs = Function.update s.fregs rd (toDouble x)

def HandlerKeepsFloats (h : Handler) : Prop := ∀ s e s', h s = .ok (e, s') → KeepsFloats s s'

lemma keepsFloats_of_normal {t : VEmu} (h : normal t = .ok (e, s')) (ht : KeepsFloats s t) :
    KeepsFloats s s' := by
  obtain ⟨-, rfl⟩ := Prod.mk.inj (Except.ok.inj h)
  exact ht

/-- Nothing but the registers and the control registers is written. -/
lemma keepsFloats_single (s : VEmu) (rd : Reg) (x : U32) (csrs : Csrs) :
    KeepsFloats s { s.storeSingle rd x with csrs := csrs } :=
  ⟨⟨rfl, rfl, rfl, Or.inl rfl⟩, Or.inr ⟨rd, x, rfl⟩⟩

lemma keepsFloats_reg (s : VEmu) (rd : Reg) (v : U64) : KeepsFloats s (s.storeReg rd v) :=
  ⟨⟨rfl, rfl, rfl, Or.inl rfl⟩, Or.inl rfl⟩

/-- **No handler of the build without SoftFloat** writes a float register. -/
lemma handler_fregs (host : Host) (n : IName) : Preserves fregs (handler host n) := by
  have hview : Unseen fregs := .of_bus (fun _ _ => rfl) fun _ _ => rfl
  have hother : ∀ {host : Host}, host.build ≠ .fuzz → Preserves fregs (handler host n) := fun hb =>
    hview.handler hb (fun _ _ => rfl) (fun _ _ => rfl) (fun _ _ => rfl) (fun _ => rfl) n
  by_cases hb : host.build = .fuzz
  · by_cases hn : n = .ECALL
    · subst hn
      simp only [handler, hb]
      exact hview.ecallFuzz host (fun _ _ => rfl) (fun _ _ _ => rfl) fun _ _ => rfl
    · -- the others do not depend on the build
      have hsame : handler host n = handler (.bare .emu) n := by
        cases n <;> first | rfl | contradiction
      rw [hsame]
      exact hother (by decide)
  · exact hother hb

lemma handler_keepsFloats (host : Host) (n : IName) : HandlerKeepsFloats (handler host n) :=
  fun s e s' h => ⟨handler_keeps host n s e s' h, Or.inl (handler_fregs host n s e s' h)⟩

namespace Softfloat

lemma fused_keeps (factor addend : U32 → U32) : HandlerKeepsFloats (fused factor addend) :=
  fun s _ _ h => keepsFloats_of_normal h (keepsFloats_single s _ _ s.csrs)

lemma floatArith_keeps (op : U32 → U32 → U32 × U8) (after : U32 → Csrs → Csrs) :
    HandlerKeepsFloats (floatArith op after) := fun s _ _ h =>
  keepsFloats_of_normal h (keepsFloats_single s _ _ _)

lemma sameSource_keeps (f : U32 → U32 → U32) : HandlerKeepsFloats (sameSource f) :=
  fun s _ _ h => keepsFloats_of_normal h (keepsFloats_single s _ _ s.csrs)

lemma floatCompare_keeps (f : U32 → U32 → Bool) : HandlerKeepsFloats (floatCompare f) :=
  fun s _ _ h => keepsFloats_of_normal h (keepsFloats_reg s _ _)

lemma floatToInteger_keeps (lib : SoftFloat) (lo hi : ℤ) (f : ℤ → U64) :
    HandlerKeepsFloats (floatToInteger lib lo hi f) := fun s _ _ h =>
  keepsFloats_of_normal h (keepsFloats_reg s _ _)

lemma integerToFloat_keeps (f : U64 → ℤ) : HandlerKeepsFloats (integerToFloat f) :=
  fun s _ _ h => keepsFloats_of_normal h (keepsFloats_single s _ _ s.csrs)

lemma load_fregs {addr : U64} {sz : ℕ} {r : U64 × ReturnException}
    (h : s.load addr sz = .ok (r, s')) : s'.fregs = s.fregs := by
  obtain ⟨r', -, h⟩ := bind_eq_ok_iff.mp h
  obtain ⟨-, rfl⟩ := Prod.mk.inj (Except.ok.inj h)
  rfl

lemma FLW_keeps : HandlerKeepsFloats FLW := fun s e s' h => by
  obtain ⟨⟨⟨res, exp⟩, s₁⟩, h₁, h⟩ := bind_eq_ok_iff.mp h
  have hload := (load_keeps h₁).1
  have hfregs := load_fregs h₁
  dsimp only at h
  split_ifs at h
  · obtain ⟨-, rfl⟩ := Prod.mk.inj (Except.ok.inj h)
    exact ⟨hload, Or.inl hfregs⟩
  · refine keepsFloats_of_normal h
      ⟨hload.trans_same rfl rfl rfl, Or.inr ⟨s₁.rd, res.setWidth 32, ?_⟩⟩
    rw [storeSingle, hfregs]

lemma FSW_keeps : HandlerKeepsFloats FSW := fun s e s' h => by
  refine ⟨store_keeps h, Or.inl ?_⟩
  obtain ⟨r', -, h⟩ := bind_eq_ok_iff.mp h
  obtain ⟨-, rfl⟩ := Prod.mk.inj (Except.ok.inj h)
  rfl

/-- **Every handler** writes floats only. -/
theorem handler_keeps (lib : SoftFloat) (host : Host) (n : IName) :
    HandlerKeepsFloats (handler lib host n) := by
  have hbase := handler_keepsFloats host n
  cases n
  case FLW => exact FLW_keeps
  case FSW => exact FSW_keeps
  case FMADDS | FMSUBS | FNMSUBS | FNMADDS =>
      simp only [handler]
      exact fused_keeps _ _
  case FADDS | FSUBS | FMULS | FDIVS =>
      simp only [handler]
      exact floatArith_keeps _ _
  case FSGNJS | FSGNJNS | FSGNJXS | FMINS | FMAXS =>
      simp only [handler]
      exact sameSource_keeps _
  case FCVTWS | FCVTWUS | FCVTLS | FCVTLUS =>
      simp only [handler]
      exact floatToInteger_keeps _ _ _ _
  case FEQS | FLTS | FLES =>
      simp only [handler]
      exact floatCompare_keeps _
  case FCVTSW | FCVTSWU | FCVTSL | FCVTSLU =>
      simp only [handler]
      exact integerToFloat_keeps _
  case FMVXW | FCLASSS => exact fun s _ _ h => keepsFloats_of_normal h (keepsFloats_reg s _ _)
  case FMVWX | FSQRTS =>
      exact fun s _ _ h => keepsFloats_of_normal h (keepsFloats_single s _ _ s.csrs)
  all_goals exact hbase

/-! ## Rounds -/

abbrev Step (lib : SoftFloat) (host : Host) : VEmu → VEmu → Prop := StepWith (handler lib host) host

abbrev Reachable (lib : SoftFloat) (host : Host) : VEmu → Prop :=
  Transition.Reachable (Built host) (Step lib host)

/-- Every float register holds a float, in an emulator that was not made by copying. -/
structure HoldsFloats (host : Host) (s : VEmu) : Prop where
  intact : s.Intact host
  registers : ∀ r, HoldsFloat (s.fregs r)

lemma HoldsFloats.keeps (hs : HoldsFloats host s) (h : KeepsFloats s s') : HoldsFloats host s' := by
  refine ⟨hs.intact.keeps h.toKeeps, fun r => ?_⟩
  rcases h.fregs with hfregs | ⟨rd, x, hfregs⟩
  · exact hfregs ▸ hs.registers r
  · rw [hfregs]
    by_cases hr : r = rd
    · exact ⟨x, by rw [hr, Function.update_self]⟩
    · rw [Function.update_of_ne hr]
      exact hs.registers r

/-- A round is the call of a handler, in a state with the float registers of the one before. -/
lemma HoldsFloats.iterate (hs : HoldsFloats host s)
    (h : iterateWith (handler lib host) host s = .ok (.next s')) : HoldsFloats host s' := by
  obtain ⟨-, csrs, mode, pc, devices, w, ins, exp, t, _, _, _, hdev, hhandler, rfl⟩ :=
    iterateWith_cases h
  have hbefore : HoldsFloats host
      { s with
        csrs := csrs, mode := mode, pc := pc, hexInstr := w, currInstr := ins
        bus := { s.bus with devices := devices }, decoder := (s.decoder.decode w).2 } :=
    ⟨⟨hs.intact.instFuncs, hs.intact.memory, hdev.trans hs.intact.devices,
      (InstructionDecoder.decode_eq hs.intact.decoder w).2⟩, hs.registers⟩
  obtain ⟨hafter, hregisters⟩ := hbefore.keeps (handler_keeps lib host _ _ _ _ hhandler)
  exact ⟨⟨hafter.instFuncs, hafter.memory, hafter.devices, hafter.decoder⟩, hregisters⟩

/-! ## Reachable emulators -/

section Constructors

variable {junk : Junk} {decoder : InstructionDecoder} {hostCalls : ℕ} {fName : List U8}
  {startPc memSize : U64}

lemma blank_fregs (h : blank host junk decoder hostCalls fName startPc memSize = .ok s) :
    s.fregs = fun _ => 0 := by
  obtain ⟨bus, -, h⟩ := bind_eq_ok_iff.mp h
  obtain rfl := Except.ok.inj h
  split <;> rfl

lemma loadImage_fregs {bytes : List U8} (h : s.loadImage bytes = .ok s') : s'.fregs = s.fregs := by
  obtain ⟨mmu, codeSize, pc, -, rfl⟩ := loadImage_frame h
  rfl

lemma ofFile_fregs (h : ofFile host junk decoder hostCalls fName startPc memSize = .ok s) :
    s.fregs = fun _ => 0 := by
  obtain ⟨s₁, h₁, h⟩ := bind_eq_ok_iff.mp h
  have hs₁ := blank_fregs h₁
  split_ifs at h
  · obtain rfl := Except.ok.inj h
    exact hs₁
  · obtain ⟨content, -, h⟩ := bind_eq_ok_iff.mp h
    exact (loadImage_fregs h).trans hs₁

end Constructors

lemma Built.holdsFloats (h : Built host s) : HoldsFloats host s := by
  have hzero : s.fregs = fun _ => 0 := by
    cases h with
    | ofFile h => exact ofFile_fregs h
    | ofBytes h =>
        obtain ⟨s₁, h₁, h⟩ := bind_eq_ok_iff.mp h
        exact (loadImage_fregs h).trans (ofFile_fregs h₁)
    | ofInfo h =>
        obtain ⟨s₀, bus, iregs, fName, hblank, rfl⟩ := ofInfo_frame h
        have hfregs := blank_fregs hblank
        exact hfregs
  refine ⟨h.intact, fun r => ⟨0, ?_⟩⟩
  rw [hzero, toDouble_zero]

lemma Step.holdsFloats (hs : HoldsFloats host s) (h : Step lib host s s') :
    HoldsFloats host s' := by
  cases h with
  | round h => exact hs.iterate h
  | receive hd c =>
      have hdev := hs.intact.devices
      rw [hd] at hdev
      exact ⟨⟨hs.intact.instFuncs, hs.intact.memory, hdev, hs.intact.decoder⟩, hs.registers⟩

/-- **In every reachable state the registers hold floats.** -/
theorem Reachable.holdsFloats (h : Reachable lib host s) : HoldsFloats host s :=
  h.invariant (fun _ h => Built.holdsFloats h) fun _ _ hs h => h.holdsFloats hs

/-! ## Into a register and out again -/

/-- An integer register is moved to a float register, and that to another integer register. -/
def moveThrough (lib : SoftFloat) (host : Host) (rs1 via rd : Reg) (s : VEmu) :
    Except Fault VEmu := do
  let (_, s) ← perform lib host (FInstr.move .FMVWX via rs1).encode s
  let (_, s) ← perform lib host (FInstr.move .FMVXW rd via).encode s
  return s

lemma perform_into (lib : SoftFloat) (hs : s.Intact host) (via rs1 : Reg) :
    ∃ t, perform lib host (FInstr.move .FMVWX via rs1).encode s = .ok (.NormalExecutionReturn, t)
      ∧ t.Intact host ∧ t.single via = quieted ((s.loadReg rs1).setWidth 32) := by
  obtain ⟨ins, hdec, hname, rfl, rfl⟩ := decode_move via rs1 .FMVWX
  rw [perform_eq lib hs hdec (by rw [hname]; decide), hname]
  refine ⟨_, rfl, ⟨hs.instFuncs, hs.memory, hs.devices,
    (InstructionDecoder.decode_eq hs.decoder _).2⟩, ?_⟩
  rw [single, storeSingle, ← toFloat_toDouble_eq]
  exact congrArg toFloat (Function.update_self ..)

lemma perform_out (lib : SoftFloat) (hs : s.Intact host) (via : Reg) {rd : Reg} (hrd : rd ≠ 0) :
    ∃ t, perform lib host (FInstr.move .FMVXW rd via).encode s = .ok (.NormalExecutionReturn, t)
      ∧ t.loadReg rd = (s.single via).signExtend 64 := by
  obtain ⟨ins, hdec, hname, rfl, rfl⟩ := decode_move rd via .FMVXW
  rw [perform_eq lib hs hdec (by rw [hname]; decide), hname]
  exact ⟨_, rfl, loadReg_storeReg_self _ hrd _⟩

/-- **A pattern that goes through a float register** comes out quiet, which is as it went in exactly
if it is not a signalling NaN. -/
theorem moves_iff (lib : SoftFloat) (hs : s.Intact host) (rs1 via : Reg) {rd : Reg} (hrd : rd ≠ 0) :
    ∃ t, moveThrough lib host rs1 via rd s = .ok t
      ∧ t.loadReg rd = (quieted ((s.loadReg rs1).setWidth 32)).signExtend 64
      ∧ (t.loadReg rd = ((s.loadReg rs1).setWidth 32).signExtend 64
        ↔ isSignalling ((s.loadReg rs1).setWidth 32) = false) := by
  obtain ⟨s₁, hinto, hs₁, hsingle⟩ := perform_into lib hs via rs1
  obtain ⟨t, hout, ht⟩ := perform_out lib hs₁ via hrd
  rw [hsingle] at ht
  refine ⟨t, ?_, ht, ?_⟩
  · rw [moveThrough, hinto, ok_bind]
    dsimp only
    rw [hout]
    rfl
  rw [ht, ← quieted_eq_self_iff]
  constructor
  · intro h
    have hint := congrArg BitVec.toInt h
    rw [BitVec.toInt_signExtend_of_le (by decide),
      BitVec.toInt_signExtend_of_le (by decide)] at hint
    exact BitVec.eq_of_toInt_eq hint
  · intro h
    rw [h]

/-- A signalling NaN in the second register. -/
theorem moves_iff_signalling :
    ∃ t, moveThrough .idle (.bare .fuzz) 2 1 3 (onePage 0 0x7F800001) = .ok t
      ∧ t.loadReg 3 = 0x7FC00001 ∧ t.loadReg 3 ≠ 0x7F800001 := by
  obtain ⟨t, ht, hvalue, hiff⟩ :=
    moves_iff .idle (intact_onePage 0 0x7F800001) 2 1 (by decide : (3 : Reg) ≠ 0)
  have hpattern : (quieted (((onePage 0 0x7F800001).loadReg 2).setWidth 32)).signExtend 64
      = (0x7FC00001 : U64) := by
    decide
  rw [hpattern] at hvalue
  exact ⟨t, ht, hvalue, by rw [hvalue]; decide⟩

/-! ## To memory and back -/

/-- Four bytes of RAM that can hold a word: they can be written, and read once they have been. -/
structure Scratch (bus : Bus) (addr : U64) : Prop where
  toRam : bus.routesToRam addr = true
  inside : bus.mmu.Fits addr 4
  writable : bus.mmu.Writable addr 4
  readable : ∀ k < 4, bus.mmu.bytePermission.data (addr.toNat + k) &&& permRaw ≠ 0
    ∨ bus.mmu.bytePermission.data (addr.toNat + k) &&& permRead ≠ 0

instance (bus : Bus) (addr : U64) : Decidable (Scratch bus addr) :=
  decidable_of_iff (bus.routesToRam addr = true ∧ bus.mmu.Fits addr 4 ∧ bus.mmu.Writable addr 4
      ∧ ∀ k < 4, bus.mmu.bytePermission.data (addr.toNat + k) &&& permRaw ≠ 0
        ∨ bus.mmu.bytePermission.data (addr.toNat + k) &&& permRead ≠ 0)
    ⟨fun ⟨hram, hfit, hwrite, hread⟩ => ⟨hram, hfit, hwrite, hread⟩,
      fun h => ⟨h.toRam, h.inside, h.writable, h.readable⟩⟩

/-- The memory once the word is stored. -/
def wordStored (m : MMU) (addr : U64) (x : U32) : MMU :=
  (m.written addr (MMU.split 4 (x.setWidth 64))).mark addr

variable {addr : U64} {x : U32}

lemma Scratch.store (h : Scratch s.bus addr) (hm : s.bus.mmu.Backed) (x : U32) :
    s.store addr (x.setWidth 64) 32
      = .ok (.NormalExecutionReturn, s.withMmu (wordStored s.bus.mmu addr x)) := by
  rw [VEmu.store, Bus.store_of_ram h.toRam, Bus.storeRam, MMU.store_of_fits hm rfl h.inside,
    if_pos h.writable]
  rfl

/-- What was stored is loaded. -/
lemma Scratch.load {bus bus' : Bus} (h : Scratch bus addr) (hm : bus.mmu.Backed)
    (hram : bus'.routesToRam addr = true) (hmmu : bus'.mmu = wordStored bus.mmu addr x) :
    ∃ v : U64, bus'.load addr 32 = .ok ((v, .NormalExecutionReturn), bus') ∧ v.setWidth 32 = x := by
  have hsz : MMU.sizeBytes 32 = some 4 := rfl
  have hnormal : (wordStored bus.mmu addr x).readOutcome addr 4 = .NormalExecutionReturn := by
    have hperm : ∀ k < 4, (wordStored bus.mmu addr x).bytePermission.data (addr.toNat + k)
        = MMU.initialised (bus.mmu.bytePermission.data (addr.toNat + k)) := fun k hk =>
      Loop.mapOn_of_mem ⟨Nat.le_add_right .., by rw [MMU.length_split]; omega⟩
    rw [MMU.readOutcome_normal_iff]
    constructor
    · intro k hk
      rw [hperm k hk]
      exact (MMU.initialised_bits _).1 (h.readable k hk)
    · intro k hk
      rw [hperm k hk]
      exact (MMU.initialised_bits _).2
  have hfits : (wordStored bus.mmu addr x).Fits addr 4 := h.inside
  have hload := MMU.load_of_fits (m := wordStored bus.mmu addr x)
    ⟨hm.ram, hm.perm, hm.size⟩ hsz hfits
  obtain ⟨v, e, hreload, hv⟩ := @MMU.reload bus.mmu addr (x.setWidth 64) 32 4 hm hsz h.inside
  obtain ⟨rfl, -⟩ := Prod.mk.inj (Except.ok.inj (hreload.symm.trans hload))
  refine ⟨MMU.assemble ((wordStored bus.mmu addr x).bytesAt addr 4), ?_, ?_⟩
  · rw [Bus.load_of_ram hram, hmmu, hload, hnormal]
    rfl
  · have hx := x.isLt
    apply BitVec.eq_of_toNat_eq
    rw [BitVec.toNat_setWidth, hv, BitVec.toNat_setWidth]
    omega

/-- A guest stores a float register, and loads the word into another. -/
def spill (lib : SoftFloat) (host : Host) (rs1 rs2 rd : Reg) (imm : BitVec 12) (s : VEmu) :
    Except Fault VEmu := do
  let (_, s) ← perform lib host (FInstr.fsw rs1 rs2 imm).encode s
  let (_, s) ← perform lib host (FInstr.flw rd rs1 imm).encode s
  return s

/-- The address of a float load or store. -/
def accessed (s : VEmu) (rs1 : Reg) (imm : BitVec 12) : U64 :=
  s.loadReg rs1 + (imm.signExtend 32).setWidth 64

lemma perform_fsw (lib : SoftFloat) (hs : s.Intact host) {rs1 : Reg} {imm : BitVec 12} (rs2 : Reg)
    (h : Scratch s.bus (accessed s rs1 imm)) :
    ∃ t, perform lib host (FInstr.fsw rs1 rs2 imm).encode s = .ok (.NormalExecutionReturn, t)
      ∧ t.Intact host ∧ t.iregs = s.iregs ∧ t.fregs = s.fregs
      ∧ t.bus.routesToRam (accessed s rs1 imm) = true
      ∧ t.bus.mmu = wordStored s.bus.mmu (accessed s rs1 imm) (s.single rs2) := by
  obtain ⟨ins, hdec, hname, rfl, rfl, himm⟩ := decode_fsw rs1 rs2 imm
  rw [perform_eq lib hs hdec (by rw [hname]; decide), hname]
  have hstore := @Scratch.store (s.decoded (FInstr.fsw ins.f.rs1 ins.f.rs2 imm).encode ins) _ h
    hs.memory (s.single ins.f.rs2)
  rw [accessed, ← himm] at hstore
  have hmemory : (wordStored s.bus.mmu (accessed s ins.f.rs1 imm) (s.single ins.f.rs2)).Backed :=
    ⟨hs.memory.ram, hs.memory.perm, hs.memory.size⟩
  refine ⟨_, hstore, ⟨hs.instFuncs, ?_, hs.devices, (InstructionDecoder.decode_eq hs.decoder _).2⟩,
    rfl, rfl, h.toRam, ?_⟩
  · rw [accessed, ← himm] at hmemory
    exact hmemory
  · rw [accessed, ← himm]
    rfl

lemma perform_flw (lib : SoftFloat) (hs : s.Intact host) {rs1 : Reg} {imm : BitVec 12} (rd : Reg)
    {v : U64} (h : s.bus.load (accessed s rs1 imm) 32 = .ok ((v, .NormalExecutionReturn), s.bus)) :
    ∃ t, perform lib host (FInstr.flw rd rs1 imm).encode s = .ok (.NormalExecutionReturn, t)
      ∧ t.iregs = s.iregs
      ∧ t.fregs = Function.update s.fregs rd (toDouble (v.setWidth 32)) := by
  obtain ⟨ins, hdec, hname, rfl, rfl, himm⟩ := decode_flw rd rs1 imm
  rw [perform_eq lib hs hdec (by rw [hname]; decide), hname]
  set s₁ := s.decoded (FInstr.flw ins.f.rd ins.f.rs1 imm).encode ins with hs₁
  have hload : s₁.load (s₁.loadReg s₁.rs1 + offs s₁) 32
      = .ok ((v, .NormalExecutionReturn), s₁) := by
    rw [accessed, ← himm] at h
    change (s.bus.load (s.loadReg ins.f.rs1 + ins.f.imm.setWidth 64) 32 >>= _) = _
    rw [h]
    rfl
  refine ⟨s₁.storeSingle s₁.rd (v.setWidth 32), ?_, rfl, rfl⟩
  change FLW s₁ = _
  rw [FLW]
  dsimp only
  rw [hload]
  rfl

/-- **A register that is spilled comes back** as it was, NaNs included, in every state that an
emulator reaches. -/
theorem reload_register (h : Reachable lib host s) {rs1 : Reg} {imm : BitVec 12}
    (hscratch : Scratch s.bus (accessed s rs1 imm)) (rs2 rd : Reg) :
    ∃ t, spill lib host rs1 rs2 rd imm s = .ok t ∧ t.iregs = s.iregs
      ∧ t.fregs = Function.update s.fregs rd (s.fregs rs2) := by
  have hs := Reachable.holdsFloats h
  obtain ⟨s₁, hstore, hs₁, hiregs, hfregs, hram, hmmu⟩ := perform_fsw lib hs.intact rs2 hscratch
  obtain ⟨v, hload, hv⟩ := hscratch.load hs.intact.memory hram hmmu
  have hsame : accessed s₁ rs1 imm = accessed s rs1 imm := by
    rw [accessed, accessed, loadReg, loadReg, hiregs]
  rw [← hsame] at hload
  obtain ⟨t, hperform, hiregs', hfregs'⟩ := perform_flw lib hs₁ rd hload
  refine ⟨t, ?_, hiregs'.trans hiregs, ?_⟩
  · rw [spill, hstore, ok_bind]
    dsimp only
    rw [hperform]
    rfl
  · rw [hfregs', hfregs, hv, single, (hs.registers rs2).toDouble_toFloat]

/-! ### A state with a NaN -/

/-- A NaN, an infinity and a one are moved into the first three float registers. -/
def mixing : FileInfo where
  fileName := []
  segments := [⟨permExec ||| permRead, 0x1000, 24, 24,
    [0x7FC002B7, 0xF00280D3, 0x7F8002B7, 0xF0028153, 0x3F8002B7, 0xF00281D3].flatMap
      (MMU.split 4), rfl⟩]
  entryPoint := 0x1000

/-- A round that goes on. -/
def goOn (lib : SoftFloat) (host : Host) (s : VEmu) : Except Fault VEmu := do
  let turn ← iterateWith (handler lib host) host s
  orFault .exitFailure turn.state

lemma Reachable.goOn (hs : Reachable lib host s) (h : goOn lib host s = .ok s') :
    Reachable lib host s' := by
  obtain ⟨turn, hturn, h⟩ := bind_eq_ok_iff.mp h
  cases turn with
  | returned code => cases h
  | next s₁ =>
      obtain rfl := Option.some.inj (orFault_eq_ok_iff.mp h)
      exact .step hs (.round hturn)

/-- The emulator of that program reaches a state with the three of them, where a word can be stored
on the stack and loaded again. -/
lemma reachable_mixing : ∃ s, Reachable .idle (.bare .fuzz) s ∧ s.fregs 1 = 0x7FF8000000000000
    ∧ s.fregs 2 = 0x7FF0000000000000 ∧ s.fregs 3 = 0x3FF0000000000000
    ∧ Scratch s.bus (accessed s 2 8) := by
  have hview : (ofInfo (.bare .fuzz) .zero (.after .init []) 0 mixing [] 0x200000 >>= fun s₀ =>
      (List.range 6).foldlM (fun s _ => goOn .idle (.bare .fuzz) s) s₀ >>= fun s =>
      .ok (s.fregs 1, s.fregs 2, s.fregs 3, decide (Scratch s.bus (accessed s 2 8))))
      = .ok (0x7FF8000000000000, 0x7FF0000000000000, 0x3FF0000000000000, true) := by
    decide +kernel
  obtain ⟨s₀, hs₀, hview⟩ := bind_eq_ok_iff.mp hview
  obtain ⟨s, hs, hview⟩ := bind_eq_ok_iff.mp hview
  obtain ⟨hnan, hview⟩ := Prod.mk.inj (Except.ok.inj hview)
  obtain ⟨hinf, hview⟩ := Prod.mk.inj hview
  obtain ⟨hone, hscratch⟩ := Prod.mk.inj hview
  have hreach : Reachable .idle (.bare .fuzz) s := foldlM_invariant _
    (fun _ _ _ hs h => Reachable.goOn hs h) (List.range 6) s₀ s (.start (.ofInfo hs₀)) hs
  exact ⟨s, hreach, hnan, hinf, hone, of_decide_eq_true hscratch⟩

/-- The NaN goes to the stack and into the fourth register. -/
theorem reload_register_mixing :
    ∃ s t, Reachable .idle (.bare .fuzz) s ∧ s.fregs 1 = 0x7FF8000000000000
      ∧ s.fregs 2 = 0x7FF0000000000000 ∧ s.fregs 3 = 0x3FF0000000000000
      ∧ spill .idle (.bare .fuzz) 2 1 4 8 s = .ok t
      ∧ t.iregs = s.iregs ∧ t.fregs = Function.update s.fregs 4 (s.fregs 1) := by
  obtain ⟨s, hs, hnan, hinf, hone, hscratch⟩ := reachable_mixing
  obtain ⟨t, ht⟩ := reload_register hs hscratch 1 4
  exact ⟨s, t, hs, hnan, hinf, hone, ht⟩

end Softfloat

end VEmu

end Vemu
