import Vemu.Decoder.EncodeFloat
import Vemu.Refinement.Step
import Vemu.Softfloat.Handlers
import Vemu.Trap.Causes

/-!
# Where float loads and stores go

`FLW` and `FSW` should access the bytes that `LW` and `SW` do, and raise what they raise.  To say so,
the four handlers are written once more with a record of their accesses (`Noting`).

The integer handlers extend the sign of the offset.  The float handlers add its 32 bits as they
are, which is the same for an offset that is not negative and 4 GiB too far for the others; and
`FLW` hands on what the bus reports, where `LW` drops it (**`addressAlike_iff`**).
-/

namespace Vemu

open Fallible Riscv

namespace VEmu

variable {host : Host} {s : VEmu} {w : U32} {ins : Instruction} {addr : U64} {sz n : ℕ}

/-! ## Accesses -/

/-- An access over the bus: its direction, its address, its number of bits. -/
structure Touch where
  stores : Bool
  addr : U64
  sz : ℕ
  deriving DecidableEq, Repr

/-- A computation that notes its accesses.  The notes are kept when the process stops. -/
abbrev Noting := ExceptT Fault (StateM (List Touch))

abbrev NotingHandler := VEmu → Noting (ReturnException × VEmu)

/-- An access is noted, and then made. -/
def noting {α : Type} (a : Touch) (x : Except Fault α) : Noting α := do
  modify (a :: ·)
  ExceptT.mk (pure x)

def loadUnsignedNoting (sz : ℕ) : NotingHandler := fun s => do
  let memAddr := s.loadReg s.rs1 + s.imm
  let ((res, exp), s) ← noting ⟨false, memAddr, sz⟩ (s.load memAddr sz)
  if exp ≠ .NormalExecutionReturn then return (exp, s)
  return (.NormalExecutionReturn, s.storeReg s.rd res)

def LWNoting : NotingHandler := fun s => do
  let (_, s) ← loadUnsignedNoting 32 s
  return (.NormalExecutionReturn,
    s.storeReg s.rd (((s.loadReg s.rd).setWidth 32).signExtend 64))

def SWNoting : NotingHandler := fun s =>
  let addr := s.loadReg s.rs1 + s.imm
  noting ⟨true, addr, 32⟩ (s.store addr (s.loadReg s.rs2 &&& 0xFFFFFFFF) 32)

namespace Softfloat

def FLWNoting : NotingHandler := fun s => do
  let addr := s.loadReg s.rs1 + offs s
  let ((res, exp), s) ← noting ⟨false, addr, 32⟩ (s.load addr 32)
  if exp ≠ .NormalExecutionReturn then return (exp, s)
  return (.NormalExecutionReturn, s.storeSingle s.rd (res.setWidth 32))

def FSWNoting : NotingHandler := fun s =>
  let addr := s.loadReg s.rs1 + offs s
  noting ⟨true, addr, 32⟩ (s.store addr ((s.single s.rs2).setWidth 64) 32)

/-- What a word does under a handler, and its accesses. -/
def noted (h : NotingHandler) (w : U32) (s : VEmu) :
    Except Fault (ReturnException × VEmu) × List Touch :=
  (do h (← ExceptT.mk (pure (s.decodeInto w))) : Noting _).run.run []

/-! ### The record is one of the handlers -/

/-- Handlers that make one access: without its record, the one with a record is the other. -/
def Notes (h : Handler) (h' : NotingHandler) (touch : VEmu → Touch) : Prop :=
  ∀ s, (h' s).run.run [] = (h s, [touch s])

lemma notes_LW : Notes LW LWNoting fun s => ⟨false, s.loadReg s.rs1 + s.imm, 32⟩ := by
  intro s
  unfold LW LWU LWNoting loadSigned loadUnsigned loadUnsignedNoting
  dsimp only
  cases s.load (s.loadReg s.rs1 + s.imm) 32 with
  | error e => rfl
  | ok r =>
      obtain ⟨⟨res, exp⟩, s'⟩ := r
      cases exp <;> rfl

lemma notes_SW : Notes SW SWNoting fun s => ⟨true, s.loadReg s.rs1 + s.imm, 32⟩ := fun _ => rfl

lemma notes_FLW : Notes FLW FLWNoting fun s => ⟨false, s.loadReg s.rs1 + offs s, 32⟩ := by
  intro s
  unfold FLW FLWNoting
  dsimp only
  cases s.load (s.loadReg s.rs1 + offs s) 32 with
  | error e => rfl
  | ok r =>
      obtain ⟨⟨res, exp⟩, s'⟩ := r
      cases exp <;> rfl

lemma notes_FSW : Notes FSW FSWNoting fun s => ⟨true, s.loadReg s.rs1 + offs s, 32⟩ := fun _ => rfl

/-- One access for a word whose handler makes one. -/
lemma noted_eq (lib : SoftFloat) (hs : s.Intact host) (hdec : decodeOf w = .ok ins)
    (hname : ins.name ≠ .FSQRTS) {h : NotingHandler} {touch : VEmu → Touch}
    (hnotes : Notes (handler lib host ins.name) h touch) :
    noted h w s = (perform lib host w s, [touch (s.decoded w ins)]) := by
  rw [perform_eq lib hs hdec hname, ← hnotes (s.decoded w ins)]
  unfold noted
  rw [decodeInto_eq hs, hdec]
  rfl

/-! ## Being alike -/

/-- **What is asked of the loads**: `FLW` makes the accesses of `LW` and reports what it reports,
and when it fails it leaves the float registers alone. -/
structure LoadsAlike (lib : SoftFloat) (host : Host) (s : VEmu) (rd rs1 : Reg)
    (imm : BitVec 12) : Prop where
  touches : (noted FLWNoting (FInstr.flw rd rs1 imm).encode s).2
    = (noted LWNoting (Instr.i .LW rd rs1 imm).encode s).2
  reports : Prod.fst <$> perform lib host (FInstr.flw rd rs1 imm).encode s
    = Prod.fst <$> perform lib host (Instr.i .LW rd rs1 imm).encode s
  unchanged : ∀ e s', perform lib host (FInstr.flw rd rs1 imm).encode s = .ok (e, s') →
    e ≠ .NormalExecutionReturn → s'.fregs = s.fregs

/-- **What is asked of the stores**: `FSW` makes the accesses of `SW` and reports what it
reports. -/
structure StoresAlike (lib : SoftFloat) (host : Host) (s : VEmu) (rs1 rs2 : Reg)
    (imm : BitVec 12) : Prop where
  touches : (noted FSWNoting (FInstr.fsw rs1 rs2 imm).encode s).2
    = (noted SWNoting (Instr.s .SW rs1 rs2 imm).encode s).2
  reports : Prod.fst <$> perform lib host (FInstr.fsw rs1 rs2 imm).encode s
    = Prod.fst <$> perform lib host (Instr.s .SW rs1 rs2 imm).encode s

/-- The four bytes are in RAM and, unless they reach past its end, can be read and are
initialised. -/
def Readable (s : VEmu) (addr : U64) : Prop :=
  s.bus.routesToRam addr = true ∧ ReadsRight s addr 4

/-! ### Offsets -/

/-- Adding 32 bits as they are or with their sign comes to the same for an offset that is not
negative. -/
lemma setWidth_eq_signExtend_iff (imm : BitVec 12) :
    (imm.signExtend 32).setWidth 64 = imm.signExtend 64 ↔ imm.msb = false := by
  constructor
  · intro h
    have htop : ((imm.signExtend 32).setWidth 64).msb = (imm.signExtend 64).msb := congrArg _ h
    rw [BitVec.msb_setWidth, BitVec.getLsbD_of_ge _ _ (by decide), Bool.and_false,
      BitVec.msb_signExtend] at htop
    simpa using htop.symm
  · intro h
    have hlt := imm.isLt
    rw [BitVec.signExtend_eq_setWidth_of_msb_false h, BitVec.signExtend_eq_setWidth_of_msb_false h]
    apply BitVec.eq_of_toNat_eq
    rw [BitVec.toNat_setWidth, BitVec.toNat_setWidth, BitVec.toNat_setWidth]
    omega

lemma add_right_inj_offset (base : U64) (imm : BitVec 12) :
    base + (imm.signExtend 32).setWidth 64 = base + imm.signExtend 64 ↔ imm.msb = false := by
  rw [← setWidth_eq_signExtend_iff]
  exact BitVec.add_right_inj base

/-- The accesses with the one offset and with the other. -/
lemma touches_eq_iff (stores : Bool) (base : U64) (imm : BitVec 12) (sz : ℕ) :
    [Touch.mk stores (base + (imm.signExtend 32).setWidth 64) sz]
        = [Touch.mk stores (base + imm.signExtend 64) sz]
      ↔ imm.msb = false := by
  rw [← add_right_inj_offset base imm]
  simp

lemma signExtend_signExtend (imm : BitVec 12) :
    (imm.signExtend 32).signExtend 64 = imm.signExtend 64 := by
  apply BitVec.eq_of_toInt_eq
  rw [BitVec.toInt_signExtend_of_le (by decide), BitVec.toInt_signExtend_of_le (by decide),
    BitVec.toInt_signExtend_of_le (by decide)]

/-! ### Reports -/

lemma FLW_report (s : VEmu) :
    Prod.fst <$> FLW s = (fun r => r.1.2) <$> s.bus.load (s.loadReg s.rs1 + offs s) 32 := by
  unfold FLW VEmu.load
  dsimp only
  cases s.bus.load (s.loadReg s.rs1 + offs s) 32 with
  | error e => rfl
  | ok r =>
      obtain ⟨⟨v, e⟩, bus⟩ := r
      cases e <;> rfl

/-- `LW` drops what the bus reports. -/
lemma LW_report (s : VEmu) :
    Prod.fst <$> LW s
      = (fun _ => .NormalExecutionReturn) <$> s.bus.load (s.loadReg s.rs1 + s.imm) 32 := by
  unfold LW LWU loadSigned loadUnsigned VEmu.load
  dsimp only
  cases s.bus.load (s.loadReg s.rs1 + s.imm) 32 with
  | error e => rfl
  | ok r =>
      obtain ⟨⟨v, e⟩, bus⟩ := r
      cases e <;> rfl

lemma FLW_unchanged {e : ReturnException} {s' : VEmu} (h : FLW s = .ok (e, s'))
    (he : e ≠ .NormalExecutionReturn) : s'.fregs = s.fregs := by
  unfold FLW VEmu.load at h
  dsimp only at h
  cases hload : s.bus.load (s.loadReg s.rs1 + offs s) 32 with
  | error f =>
      rw [hload] at h
      cases h
  | ok r =>
      obtain ⟨⟨v, e'⟩, bus⟩ := r
      rw [hload] at h
      simp only [ok_bind, pure_eq_ok] at h
      split_ifs at h with hexp
      · obtain ⟨-, rfl⟩ := Prod.mk.inj (Except.ok.inj h)
        rfl
      · exact absurd (Prod.mk.inj (Except.ok.inj h)).1.symm he

/-- No device takes an access of four bytes. -/
lemma load_device_refused {bus : Bus} (hram : bus.routesToRam addr = false) :
    ∃ bus', bus.load addr 32 = .ok ((0, .LoadAccessFault), bus') := by
  cases hd : bus.devices with
  | none => simp [Bus.routesToRam, hd] at hram
  | some d =>
      have h64 : ¬ (32 = 64) := by decide
      have h8 : ¬ (32 = 8) := by decide
      simp only [Bus.load, hd, CLINT.load, PLIC.load, UART.load, h64, h8, if_false]
      split_ifs with h1 h2 h3
      · exact ⟨_, rfl⟩
      · exact ⟨_, rfl⟩
      · exact ⟨_, rfl⟩
      · simp [Bus.routesToRam, hd, h1, h2, h3] at hram

/-- **The bus reports nothing** about a load of four bytes exactly if they are readable. -/
lemma load_report_iff (hm : s.bus.mmu.Backed) :
    (fun r => r.1.2) <$> s.bus.load addr 32
        = (fun _ => ReturnException.NormalExecutionReturn) <$> s.bus.load addr 32
      ↔ Readable s addr := by
  have hsz : MMU.sizeBytes 32 = some 4 := rfl
  unfold Readable ReadsRight
  cases hram : s.bus.routesToRam addr with
  | false =>
      obtain ⟨bus', hload⟩ := load_device_refused hram
      rw [hload]
      exact iff_of_false (fun h => by cases h) (by simp)
  | true =>
      rw [Bus.load_of_ram hram]
      by_cases hf : s.bus.mmu.Fits addr 4
      · rw [MMU.load_of_fits hm hsz hf, ← MMU.readOutcome_normal_iff]
        simp only [true_and, forall_const, hf]
        exact ⟨fun h => Except.ok.inj h, fun h => congrArg Except.ok h⟩
      · simp only [true_and, hf, IsEmpty.forall_iff, implies_true, iff_true]
        by_cases hw : s.bus.mmu.Wraps addr 4
        · rw [MMU.load_of_wraps hsz hw]
          rfl
        · rw [MMU.load_of_not hsz hf hw]
          rfl

/-- What a store of four bytes reports does not depend on what is stored. -/
lemma store_report (hm : s.bus.mmu.Backed) (data data' : U64) :
    Prod.fst <$> s.bus.store addr data 32 = Prod.fst <$> s.bus.store addr data' 32 := by
  have hsz : MMU.sizeBytes 32 = some 4 := rfl
  cases hram : s.bus.routesToRam addr with
  | false =>
      have ht : ¬ s.bus.Takes addr 32 := by
        unfold Bus.Takes
        rw [hram]
        split_ifs <;> decide
      rw [Bus.store_of_not_takes ht, Bus.store_of_not_takes ht]
  | true =>
      rw [Bus.store_of_ram hram, Bus.store_of_ram hram, Bus.storeRam, Bus.storeRam]
      by_cases hf : s.bus.mmu.Fits addr 4
      · rw [MMU.store_of_fits hm hsz hf, MMU.store_of_fits hm hsz hf]
        split_ifs <;> rfl
      · by_cases hw : s.bus.mmu.Wraps addr 4
        · rw [MMU.store_of_wraps hsz hw, MMU.store_of_wraps hsz hw]
        · rw [MMU.store_of_not hsz hf hw, MMU.store_of_not hsz hf hw]

lemma store_fst (s : VEmu) (addr data : U64) (sz : ℕ) :
    Prod.fst <$> s.store addr data sz = Prod.fst <$> s.bus.store addr data sz := by
  unfold VEmu.store
  cases s.bus.store addr data sz <;> rfl

/-! ## Words -/

/-- A word whose decoding is known, its handler, and the one access of the handler. -/
lemma word_eq (lib : SoftFloat) (hs : s.Intact host) (hdec : decodeOf w = .ok ins)
    {name : IName} (hins : ins.name = name) (hname : name ≠ .FSQRTS) {h : NotingHandler}
    {touch : VEmu → Touch} (hnotes : Notes (handler lib host name) h touch) :
    perform lib host w s = handler lib host name (s.decoded w ins)
      ∧ (noted h w s).2 = [touch (s.decoded w ins)] := by
  subst hins
  rw [noted_eq lib hs hdec hname hnotes]
  exact ⟨perform_eq lib hs hdec hname, rfl⟩

section Decoded

variable {rs1 : Reg} {imm : BitVec 12} (hrs1 : ins.f.rs1 = rs1)
  (himm : ins.f.imm = imm.signExtend 32)

include hrs1 himm

lemma floatAddress_decoded :
    (s.decoded w ins).loadReg (s.decoded w ins).rs1 + offs (s.decoded w ins)
      = s.loadReg rs1 + (imm.signExtend 32).setWidth 64 := by
  change s.loadReg ins.f.rs1 + ins.f.imm.setWidth 64 = _
  rw [hrs1, himm]

lemma address_decoded :
    (s.decoded w ins).loadReg (s.decoded w ins).rs1 + (s.decoded w ins).imm
      = s.loadReg rs1 + imm.signExtend 64 := by
  change s.loadReg ins.f.rs1 + ins.f.imm.signExtend 64 = _
  rw [hrs1, himm, signExtend_signExtend]

end Decoded

/-- **The loads** are alike exactly if the offset is not negative and the four bytes are readable. -/
lemma loadsAlike_iff (lib : SoftFloat) (hs : s.Intact host) (rd rs1 : Reg) (imm : BitVec 12) :
    LoadsAlike lib host s rd rs1 imm
      ↔ imm.msb = false ∧ Readable s (s.loadReg rs1 + imm.signExtend 64) := by
  obtain ⟨fins, hfdec, hfname, -, hfrs1, hfimm⟩ := decode_flw rd rs1 imm
  obtain ⟨ins, hdec, hname, -, hrs1, himm⟩ := decode_i rd rs1 .LW imm
  obtain ⟨hflw, hftouch⟩ := word_eq lib hs hfdec hfname (by decide) notes_FLW
  obtain ⟨hlw, htouch⟩ := word_eq lib hs hdec hname (by decide) notes_LW
  rw [floatAddress_decoded hfrs1 hfimm] at hftouch
  rw [address_decoded hrs1 himm] at htouch
  have htouches : (noted FLWNoting (FInstr.flw rd rs1 imm).encode s).2
        = (noted LWNoting (Instr.i .LW rd rs1 imm).encode s).2 ↔ imm.msb = false := by
    rw [hftouch, htouch]
    exact touches_eq_iff ..
  have hunchanged : ∀ e s', perform lib host (FInstr.flw rd rs1 imm).encode s = .ok (e, s') →
      e ≠ .NormalExecutionReturn → s'.fregs = s.fregs := by
    intro e s' h he
    have hkept := FLW_unchanged (hflw.symm.trans h) he
    exact hkept
  have hreports (hmsb : imm.msb = false) :
      (Prod.fst <$> perform lib host (FInstr.flw rd rs1 imm).encode s
        = Prod.fst <$> perform lib host (Instr.i .LW rd rs1 imm).encode s)
      ↔ Readable s (s.loadReg rs1 + imm.signExtend 64) := by
    rw [hflw, hlw]
    change Prod.fst <$> FLW _ = Prod.fst <$> LW _ ↔ _
    rw [FLW_report, LW_report, floatAddress_decoded hfrs1 hfimm, address_decoded hrs1 himm,
      (add_right_inj_offset _ _).mpr hmsb]
    exact load_report_iff hs.memory
  constructor
  · intro h
    have hmsb := htouches.mp h.touches
    exact ⟨hmsb, (hreports hmsb).mp h.reports⟩
  · rintro ⟨hmsb, hread⟩
    exact ⟨htouches.mpr hmsb, (hreports hmsb).mpr hread, hunchanged⟩

/-- **The stores** are alike exactly if the offset is not negative. -/
lemma storesAlike_iff (lib : SoftFloat) (hs : s.Intact host) (rs1 rs2 : Reg) (imm : BitVec 12) :
    StoresAlike lib host s rs1 rs2 imm ↔ imm.msb = false := by
  obtain ⟨fins, hfdec, hfname, hfrs1, -, hfimm⟩ := decode_fsw rs1 rs2 imm
  obtain ⟨ins, hdec, hname, hrs1, -, himm⟩ := decode_s rs1 rs2 .SW imm
  obtain ⟨hfsw, hftouch⟩ := word_eq lib hs hfdec hfname (by decide) notes_FSW
  obtain ⟨hsw, htouch⟩ := word_eq lib hs hdec hname (by decide) notes_SW
  rw [floatAddress_decoded hfrs1 hfimm] at hftouch
  rw [address_decoded hrs1 himm] at htouch
  have htouches : (noted FSWNoting (FInstr.fsw rs1 rs2 imm).encode s).2
        = (noted SWNoting (Instr.s .SW rs1 rs2 imm).encode s).2 ↔ imm.msb = false := by
    rw [hftouch, htouch]
    exact touches_eq_iff ..
  have hreports (hmsb : imm.msb = false) :
      Prod.fst <$> perform lib host (FInstr.fsw rs1 rs2 imm).encode s
        = Prod.fst <$> perform lib host (Instr.s .SW rs1 rs2 imm).encode s := by
    rw [hfsw, hsw]
    change Prod.fst <$> VEmu.store _ _ _ 32 = Prod.fst <$> VEmu.store _ _ _ 32
    rw [store_fst, store_fst, floatAddress_decoded hfrs1 hfimm, address_decoded hrs1 himm,
      (add_right_inj_offset _ _).mpr hmsb]
    exact store_report hs.memory _ _
  exact ⟨fun h => htouches.mp h.touches, fun hmsb => ⟨htouches.mpr hmsb, hreports hmsb⟩⟩

/-- **Float loads and stores address as the integer ones do**, and raise what they raise, exactly
where the offset is not negative and no load is refused. -/
theorem addressAlike_iff (lib : SoftFloat) (host : Host) (s : VEmu) (hs : s.Intact host)
    (rd rs1 rs2 : Reg) (imm : BitVec 12) :
    (LoadsAlike lib host s rd rs1 imm
        ↔ imm.msb = false ∧ Readable s (s.loadReg rs1 + imm.signExtend 64))
      ∧ (StoresAlike lib host s rs1 rs2 imm ↔ imm.msb = false) :=
  ⟨loadsAlike_iff lib hs rd rs1 imm, storesAlike_iff lib hs rs1 rs2 imm⟩

/-- `lw x1, 4(x2)` and `flw f1, 4(x2)`, `sw x3, 4(x2)` and `fsw f3, 4(x2)`, in the middle of a
page. -/
theorem addressAlike_middle :
    LoadsAlike .idle (.bare .fuzz) (onePage 0 2048) 1 2 4
      ∧ StoresAlike .idle (.bare .fuzz) (onePage 0 2048) 2 3 4 := by
  have h := addressAlike_iff .idle (.bare .fuzz) (onePage 0 2048) (intact_onePage _ _) 1 2 3 4
  refine ⟨h.1.mpr ⟨by decide, rfl, fun _ _ => ⟨fun k _ => ?_, fun k _ => ?_⟩⟩, h.2.mpr (by decide)⟩
  · exact ne_of_eq_of_ne (congrArg (· &&& permRead) (permAt_onePage _ _ _ k)) (by decide)
  · exact (congrArg (· &&& permRaw) (permAt_onePage _ _ _ k)).trans (by decide)

/-- With the offset -4, `lw` loads below the middle of the page and `flw` far outside of it. -/
theorem not_addressAlike_below :
    (noted LWNoting (Instr.i .LW 1 2 (-4)).encode (onePage 0 2048)).2 = [⟨false, 0x7FC, 32⟩]
      ∧ (noted FLWNoting (FInstr.flw 1 2 (-4)).encode (onePage 0 2048)).2
        = [⟨false, 0x1000007FC, 32⟩]
      ∧ ¬ LoadsAlike .idle (.bare .fuzz) (onePage 0 2048) 1 2 (-4)
      ∧ ¬ StoresAlike .idle (.bare .fuzz) (onePage 0 2048) 2 3 (-4) := by
  refine ⟨by decide +kernel, by decide +kernel, ?_, ?_⟩
  · rw [loadsAlike_iff .idle (intact_onePage _ _)]
    exact fun h => absurd h.1 (by decide)
  · rw [storesAlike_iff .idle (intact_onePage _ _)]
    decide

end Softfloat

end VEmu

end Vemu
