import Mathlib.Logic.Relation
import Vemu.Frame
import Vemu.MMU.Shape

/-!
# What the constructors do

The constructor from an image goes through many states: it loads the segments, allocates the stack,
and pushes the words and the strings of the process (`ofInfo_result`).  From the loaded segments on
each thing it does is one of a few (`SetupStep`).  So an invariant of these holds of every emulator
it makes (`ofInfo_setup`), and what none of them touches is as in the blank emulator
(`ofInfo_frame`).
-/

namespace Vemu

open Fallible Relation

namespace VEmu

variable {host : Host} {junk : Junk} {decoder : InstructionDecoder} {hostCalls : ℕ} {info : FileInfo}
  {args : List (List U8)} {startPc memSize : U64} {s s' : VEmu}

/-! ## The parts -/

lemma loadImage_frame {bytes : List U8} (h : s.loadImage bytes = .ok s') :
    ∃ mmu codeSize pc, s.bus.mmu.SameShape mmu
      ∧ s' = { s.withMmu mmu with codeSize := codeSize, pc := pc } := by
  rw [loadImage, bind_eq_ok_iff] at h
  obtain ⟨⟨base, m₁⟩, h₁, h⟩ := h
  rw [bind_eq_ok_iff] at h
  obtain ⟨m₂, h₂, h⟩ := h
  rw [bind_eq_ok_iff] at h
  obtain ⟨m₃, h₃, h⟩ := h
  rw [bind_eq_ok_iff] at h
  obtain ⟨m₄, h₄, h⟩ := h
  exact ⟨m₄, _, _, (((MMU.allocate_sameShape h₁).trans (MMU.setPerms_sameShape h₂)).trans
    (MMU.writeFrom_sameShape h₃)).trans (MMU.setPerms_sameShape h₄), (Except.ok.inj h).symm⟩

lemma ofFile_nil (host : Host) (junk : Junk) (decoder : InstructionDecoder) (hostCalls : ℕ)
    (startPc memSize : U64) : ofFile host junk decoder hostCalls [] startPc memSize
      = blank host junk decoder hostCalls [] startPc memSize := by
  rw [ofFile]
  cases blank host junk decoder hostCalls [] startPc memSize <;> rfl

lemma pushToStack_cases {v : U64} (h : s.pushToStack v 64 = .ok s') :
    ∃ e bus, s.bus.store (s.loadReg regSp - 8) v 64 = .ok (e, bus)
      ∧ s' = ({ s with bus := bus } : VEmu).storeReg regSp (s.loadReg regSp - 8) := by
  rw [pushToStack, bind_eq_ok_iff] at h
  obtain ⟨⟨e, s₁⟩, h₁, h⟩ := h
  obtain rfl := Except.ok.inj h
  obtain ⟨bus, hstore, rfl⟩ := store_frame h₁
  exact ⟨e, bus, hstore, rfl⟩

lemma pushString_cases {arg : List U8} (h : s.pushString arg = .ok s') :
    ∃ base m m', s.bus.mmu.allocate 256 = .ok (base, m) ∧ m.writeFrom (arg ++ [0]) base = .ok m'
      ∧ (s.withMmu m').pushToStack base 64 = .ok s' := by
  rw [pushString, bind_eq_ok_iff] at h
  obtain ⟨⟨base, m⟩, halloc, h⟩ := h
  dsimp only at h
  rw [bind_eq_ok_iff] at h
  obtain ⟨s₁, h₁, h⟩ := h
  rw [writeStringToAddr, bind_eq_ok_iff] at h₁
  obtain ⟨m', hwrite, h₁⟩ := h₁
  obtain rfl := Except.ok.inj h₁
  exact ⟨base, m, m', halloc, hwrite, h⟩

/-- The states of the constructor from an image. -/
lemma ofInfo_result (h : ofInfo host junk decoder hostCalls info args memSize = .ok s) :
    ∃ s₀ m base m' s₁ s₂ s₃ s₄ s₅,
      blank host junk decoder hostCalls [] info.entryPoint memSize = .ok s₀
      ∧ s₀.bus.mmu.loadFile info = .ok m ∧ m.allocate stackSize = .ok (base, m')
      ∧ (({ s₀.withMmu m' with binFileName := info.fileName } : VEmu).storeReg regSp
          (base + stackSize)).pushToStack 0 64 = .ok s₁
      ∧ s₁.pushToStack 0 64 = .ok s₂ ∧ s₂.pushToStack 0 64 = .ok s₃
      ∧ args.reverse.foldlM pushString s₃ = .ok s₄ ∧ s₄.pushString info.fileName = .ok s₅
      ∧ s₅.pushToStack (BitVec.ofNat 64 args.length + 1) 64 = .ok s := by
  rw [ofInfo, ofFile_nil, bind_eq_ok_iff] at h
  obtain ⟨s₀, hblank, h⟩ := h
  rw [bind_eq_ok_iff] at h
  obtain ⟨m, hload, h⟩ := h
  rw [bind_eq_ok_iff] at h
  obtain ⟨⟨base, m'⟩, halloc, h⟩ := h
  dsimp only at h
  rw [bind_eq_ok_iff] at h
  obtain ⟨s₁, h₁, h⟩ := h
  rw [bind_eq_ok_iff] at h
  obtain ⟨s₂, h₂, h⟩ := h
  rw [bind_eq_ok_iff] at h
  obtain ⟨s₃, h₃, h⟩ := h
  rw [bind_eq_ok_iff] at h
  obtain ⟨s₄, h₄, h⟩ := h
  rw [bind_eq_ok_iff] at h
  obtain ⟨s₅, h₅, h⟩ := h
  exact ⟨s₀, m, base, m', s₁, s₂, s₃, s₄, s₅, hblank, hload, halloc, h₁, h₂, h₃, h₄, h₅, h⟩

/-! ## The steps -/

/-- One thing that the constructor does once the segments are loaded. -/
inductive SetupStep (s : VEmu) : VEmu → Prop
  | name (fName : List U8) : SetupStep s { s with binFileName := fName }
  | register (r : Reg) (v : U64) : SetupStep s (s.storeReg r v)
  | allocate {size base : U64} {mmu : MMU} (h : s.bus.mmu.allocate size = .ok (base, mmu)) :
      SetupStep s (s.withMmu mmu)
  | write {bytes : List U8} {addr : U64} {mmu : MMU}
      (h : s.bus.mmu.writeFrom bytes addr = .ok mmu) : SetupStep s (s.withMmu mmu)
  | store {addr v : U64} {sz : ℕ} {e : ReturnException} {s' : VEmu}
      (h : s.store addr v sz = .ok (e, s')) : SetupStep s s'

lemma pushToStack_setup {v : U64} {sz : ℕ} (h : s.pushToStack v sz = .ok s') :
    ReflTransGen SetupStep s s' := by
  rw [pushToStack, bind_eq_ok_iff] at h
  obtain ⟨⟨e, s₁⟩, hstore, h⟩ := h
  obtain rfl := Except.ok.inj h
  exact .tail (.single (.store hstore)) (.register _ _)

lemma pushString_setup {arg : List U8} (h : s.pushString arg = .ok s') :
    ReflTransGen SetupStep s s' := by
  obtain ⟨base, m, m', halloc, hwrite, hpush⟩ := pushString_cases h
  have hblock : ReflTransGen SetupStep s ((s.withMmu m).withMmu m') :=
    .tail (.single (.allocate halloc)) (.write hwrite)
  exact hblock.trans (pushToStack_setup hpush)

/-- **The constructor, step by step** from the loaded segments on. -/
theorem ofInfo_setup (h : ofInfo host junk decoder hostCalls info args memSize = .ok s) :
    ∃ s₀ m, blank host junk decoder hostCalls [] info.entryPoint memSize = .ok s₀
      ∧ s₀.bus.mmu.loadFile info = .ok m ∧ ReflTransGen SetupStep (s₀.withMmu m) s := by
  obtain ⟨s₀, m, base, m', s₁, s₂, s₃, s₄, s₅, hblank, hload, halloc, h₁, h₂, h₃, h₄, h₅, h₆⟩ :=
    ofInfo_result h
  refine ⟨s₀, m, hblank, hload, ?_⟩
  have hstack : ReflTransGen SetupStep (s₀.withMmu m)
      (({ s₀.withMmu m' with binFileName := info.fileName } : VEmu).storeReg regSp
        (base + stackSize)) :=
    .tail (.tail (.single (SetupStep.allocate (s := s₀.withMmu m) halloc)) (.name _))
      (.register _ _)
  have hzeros := ((hstack.trans (pushToStack_setup h₁)).trans (pushToStack_setup h₂)).trans
    (pushToStack_setup h₃)
  have hargs := foldlM_invariant (ReflTransGen SetupStep (s₀.withMmu m))
    (fun _ _ _ ht hpush => ht.trans (pushString_setup hpush)) _ _ _ hzeros h₄
  exact (hargs.trans (pushString_setup h₅)).trans (pushToStack_setup h₆)

/-- What a step leaves alone. -/
lemma SetupStep.frame (h : SetupStep s s') :
    ∃ bus iregs fName, s' = { s with bus := bus, iregs := iregs, binFileName := fName } := by
  cases h with
  | name fName => exact ⟨s.bus, s.iregs, fName, rfl⟩
  | register r v => exact ⟨s.bus, s.iregs.storeReg r v, s.binFileName, rfl⟩
  | allocate h => exact ⟨_, s.iregs, s.binFileName, rfl⟩
  | write h => exact ⟨_, s.iregs, s.binFileName, rfl⟩
  | store h =>
      obtain ⟨bus, -, rfl⟩ := store_frame h
      exact ⟨bus, s.iregs, s.binFileName, rfl⟩

lemma setup_frame (h : ReflTransGen SetupStep s s') :
    ∃ bus iregs fName, s' = { s with bus := bus, iregs := iregs, binFileName := fName } := by
  induction h with
  | refl => exact ⟨s.bus, s.iregs, s.binFileName, rfl⟩
  | tail _ hstep ih =>
      obtain ⟨bus, iregs, fName, rfl⟩ := ih
      obtain ⟨bus', iregs', fName', rfl⟩ := hstep.frame
      exact ⟨bus', iregs', fName', rfl⟩

/-- **What the constructor leaves alone**: everything but the bus, the registers and the name is as
in the blank emulator. -/
theorem ofInfo_frame (h : ofInfo host junk decoder hostCalls info args memSize = .ok s) :
    ∃ s₀ bus iregs fName,
      blank host junk decoder hostCalls [] info.entryPoint memSize = .ok s₀
      ∧ s = { s₀ with bus := bus, iregs := iregs, binFileName := fName } := by
  obtain ⟨s₀, m, hblank, -, hsetup⟩ := ofInfo_setup h
  obtain ⟨bus, iregs, fName, heq⟩ := setup_frame hsetup
  exact ⟨s₀, bus, iregs, fName, hblank, heq⟩

end VEmu

end Vemu
