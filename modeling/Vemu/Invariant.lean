import Vemu.Construction
import Vemu.Handlers.Families
import Vemu.Decoder.Cache

/-!
# Reachable states

An emulator that one of its three constructors made, and that has run for any number of rounds,
is *intact*: its handler table is the full one, its memory has storage for all of RAM, there are
devices exactly outside the fuzzing build, and the caches of the decoder agree with its tables
(`Reachable.intact`).

Whatever a handler does to memory is at most one operation of the memory unit (`Keeps.memory`),
so what `MMU.Operations` says of runs of operations holds of the emulator's rounds.
-/

namespace Vemu

open Fallible Transition

/-- The memory is left alone, or changed by one operation. -/
def MMU.Touched (m m' : MMU) : Prop := m' = m ∨ ∃ op, m.applyOp op = .ok m'

lemma MMU.Touched.sameShape {m m' : MMU} (h : m.Touched m') : m.SameShape m' := by
  rcases h with rfl | ⟨op, hop⟩
  · exact .refl _
  · exact MMU.applyOp_sameShape hop

namespace VEmu

variable {host : Host} {s s' : VEmu}

/-! ## What every handler keeps -/

/-- What a handler keeps of the state it is called in. -/
structure Keeps (s s' : VEmu) : Prop where
  instFuncs : s'.instFuncs = s.instFuncs
  decoder : s'.decoder = s.decoder
  devices : s'.bus.devices.isNone = s.bus.devices.isNone
  memory : s.bus.mmu.Touched s'.bus.mmu

lemma Keeps.refl (s : VEmu) : Keeps s s := ⟨rfl, rfl, rfl, Or.inl rfl⟩

/-- A change of members that are not kept track of. -/
lemma Keeps.trans_same {s₁ s₂ : VEmu} (h : Keeps s s₁) (hfuncs : s₂.instFuncs = s₁.instFuncs)
    (hdecoder : s₂.decoder = s₁.decoder) (hbus : s₂.bus = s₁.bus) : Keeps s s₂ where
  instFuncs := hfuncs.trans h.instFuncs
  decoder := hdecoder.trans h.decoder
  devices := hbus ▸ h.devices
  memory := hbus ▸ h.memory

/-- The handler keeps what it should, whenever it comes to an end. -/
def HandlerKeeps (h : Handler) : Prop := ∀ s e s', h s = .ok (e, s') → Keeps s s'

section Bus

variable {bus bus' : Bus} {addr data : U64} {sz : ℕ}

lemma load_keeps {r : U64 × ReturnException} (h : s.load addr sz = .ok (r, s')) :
    Keeps s s' ∧ s'.bus.mmu = s.bus.mmu := by
  rw [load, bind_eq_ok_iff] at h
  obtain ⟨⟨r', bus⟩, hbus, h⟩ := h
  simp only [pure_eq_ok, Except.ok.injEq, Prod.mk.injEq] at h
  obtain ⟨-, rfl⟩ := h
  obtain ⟨hmmu, hdevices⟩ := Bus.load_leaves hbus
  exact ⟨⟨rfl, rfl, hdevices, Or.inl hmmu⟩, hmmu⟩

lemma store_keeps {e : ReturnException} (h : s.store addr data sz = .ok (e, s')) :
    Keeps s s' := by
  rw [store, bind_eq_ok_iff] at h
  obtain ⟨⟨e', bus⟩, hbus, h⟩ := h
  simp only [pure_eq_ok, Except.ok.injEq, Prod.mk.injEq] at h
  obtain ⟨-, rfl⟩ := h
  obtain ⟨hmmu, hdevices⟩ := Bus.store_leaves hbus
  refine ⟨rfl, rfl, hdevices, hmmu.imp id ?_⟩
  rintro ⟨e', hstore⟩
  refine ⟨.store addr data sz, ?_⟩
  rw [MMU.applyOp, hstore]
  rfl

end Bus

/-! ### The families -/

/-- A handler that goes through with an update of other members keeps what it should. -/
lemma keeps_of_normal {e : ReturnException} {t : VEmu} (h : normal t = .ok (e, s'))
    (ht : Keeps s t) : Keeps s s' := by
  simp only [normal, Except.ok.injEq, Prod.mk.injEq] at h
  exact h.2 ▸ ht

lemma keeps_of_return {e r : ReturnException} {t : VEmu}
    (h : (pure (r, t) : Except Fault (ReturnException × VEmu)) = .ok (e, s')) (ht : Keeps s t) :
    Keeps s s' := by
  obtain ⟨-, rfl⟩ := Prod.mk.inj (Except.ok.inj h)
  exact ht

lemma regReg_keeps (f : U64 → U64 → U64) : HandlerKeeps (regReg f) := fun _ _ _ h =>
  keeps_of_normal h ⟨rfl, rfl, rfl, Or.inl rfl⟩

lemma regImm_keeps (f : U64 → U64 → U64) : HandlerKeeps (regImm f) := fun _ _ _ h =>
  keeps_of_normal h ⟨rfl, rfl, rfl, Or.inl rfl⟩

lemma shiftImm_keeps (mask : U32) (f : U64 → U8 → U64) : HandlerKeeps (shiftImm mask f) :=
  fun _ _ _ h => keeps_of_normal h ⟨rfl, rfl, rfl, Or.inl rfl⟩

lemma shiftReg_keeps (mask : U64) (f : U64 → U8 → U64) : HandlerKeeps (shiftReg mask f) :=
  fun _ _ _ h => keeps_of_normal h ⟨rfl, rfl, rfl, Or.inl rfl⟩

lemma branch_keeps (taken : U64 → U64 → Bool) : HandlerKeeps (branch taken) := fun s _ _ h => by
  refine keeps_of_normal h ?_
  split
  · exact ⟨rfl, rfl, rfl, Or.inl rfl⟩
  · exact Keeps.refl s

lemma dividing_keeps (f : U64 → U64 → Option U64) : HandlerKeeps (dividing f) := fun s _ _ h => by
  unfold dividing at h
  split at h
  · exact keeps_of_normal h ⟨rfl, rfl, rfl, Or.inl rfl⟩
  · exact keeps_of_normal h ⟨rfl, rfl, rfl, Or.inl rfl⟩

lemma loadUnsigned_keeps (sz : ℕ) : HandlerKeeps (loadUnsigned sz) := fun s e s' h => by
  rw [loadUnsigned, bind_eq_ok_iff] at h
  obtain ⟨⟨⟨res, exp⟩, s₁⟩, h₁, h⟩ := h
  have hkeeps := (load_keeps h₁).1
  dsimp only at h
  split_ifs at h
  · exact keeps_of_return h hkeeps
  · exact keeps_of_normal h (hkeeps.trans_same rfl rfl rfl)

lemma loadSigned_keeps (bits : ℕ) {unsigned : Handler} (hu : HandlerKeeps unsigned) :
    HandlerKeeps (loadSigned bits unsigned) := fun s e s' h => by
  rw [loadSigned, bind_eq_ok_iff] at h
  obtain ⟨⟨e₁, s₁⟩, h₁, h⟩ := h
  exact keeps_of_normal h ((hu s e₁ s₁ h₁).trans_same rfl rfl rfl)

lemma storeData_keeps (sz : ℕ) (f : U64 → U64) : HandlerKeeps (storeData sz f) :=
  fun _ _ _ h => store_keeps h

lemma loadReserved_keeps (sz : ℕ) : HandlerKeeps (loadReserved sz) := fun s e s' h => by
  unfold loadReserved at h
  dsimp only at h
  split_ifs at h with hal
  · exact keeps_of_return h (Keeps.refl s)
  · rw [bind_eq_ok_iff] at h
    obtain ⟨⟨⟨res, exp⟩, s₁⟩, h₁, h⟩ := h
    have hkeeps := (load_keeps h₁).1
    dsimp only at h
    split_ifs at h
    · exact keeps_of_return h hkeeps
    · exact keeps_of_normal h (hkeeps.trans_same rfl rfl rfl)

lemma storeConditional_keeps (sz : ℕ) : HandlerKeeps (storeConditional sz) := fun s e s' h => by
  unfold storeConditional at h
  dsimp only at h
  split_ifs at h with hal
  · exact keeps_of_return h (Keeps.refl s)
  · rw [bind_eq_ok_iff] at h
    obtain ⟨⟨exp, s₁⟩, h₁, h⟩ := h
    exact keeps_of_return h ((store_keeps h₁).trans_same rfl rfl rfl)

lemma amo_keeps (sz : ℕ) (old : U64 → U64) (f : U64 → U64 → U64) : HandlerKeeps (amo sz old f) :=
  fun s e s' h => by
  unfold amo at h
  dsimp only at h
  split_ifs at h with hal
  · exact keeps_of_return h (Keeps.refl s)
  · rw [bind_eq_ok_iff] at h
    obtain ⟨⟨⟨tmp, exp⟩, s₁⟩, h₁, h⟩ := h
    obtain ⟨hload, hmmu⟩ := load_keeps h₁
    dsimp only at h
    split_ifs at h
    · exact keeps_of_return h hload
    · rw [bind_eq_ok_iff] at h
      obtain ⟨⟨exp', s₂⟩, h₂, h⟩ := h
      have hstore := store_keeps h₂
      -- the load left memory alone, so the store is the one operation
      have hkeeps : Keeps s s₂ :=
        ⟨hstore.instFuncs.trans hload.instFuncs, hstore.decoder.trans hload.decoder,
          hstore.devices.trans hload.devices, hmmu ▸ hstore.memory⟩
      dsimp only at h
      split_ifs at h
      · exact keeps_of_return h hkeeps
      · exact keeps_of_normal h (hkeeps.trans_same rfl rfl rfl)

lemma csrModify_keeps (operand : VEmu → U64) (f : U64 → U64 → U64) :
    HandlerKeeps (csrModify operand f) := fun _ _ _ h =>
  keeps_of_normal h ⟨rfl, rfl, rfl, Or.inl rfl⟩

/-- A handler that changes nothing. -/
lemma report_keeps {h : Handler} {r : ReturnException} (hh : ∀ s, h s = .ok (r, s)) :
    HandlerKeeps h := fun s e s' heq => by
  rw [hh, Except.ok.injEq, Prod.mk.injEq] at heq
  exact heq.2 ▸ Keeps.refl s

lemma mret_keeps : HandlerKeeps MRET := fun s e s' h => by
  rw [MRET, bind_eq_ok_iff] at h
  obtain ⟨mode, -, h⟩ := h
  exact keeps_of_normal h ⟨rfl, rfl, rfl, Or.inl rfl⟩

lemma ecallEmu_keeps : HandlerKeeps ecallEmu := fun s e s' h => by
  have hs : s = s' := by
    unfold ecallEmu at h
    split at h <;> simp only [Except.ok.injEq, Prod.mk.injEq] at h <;> exact h.2
  exact hs ▸ Keeps.refl s

/-! ### System calls -/

lemma length_statBytes (fd len : U64) (junk : ℕ → U8) : (statBytes fd len junk).length = 128 := by
  unfold statBytes
  repeat rw [List.length_append]
  repeat rw [MMU.length_split]
  repeat rw [List.length_map, List.length_range]

lemma length_slice {data : Option (List U8)} {idx count : U64} {bytes : List U8}
    (h : slice data idx count = .ok bytes) :
    bytes.length = count.toNat ∧ count.toNat ≤ MMU.maxVectorSize := by
  rw [slice, bind_eq_ok_iff] at h
  obtain ⟨_, hmax, h⟩ := h
  rw [bind_eq_ok_iff] at h
  obtain ⟨buffer, -, h⟩ := h
  rw [bind_eq_ok_iff] at h
  obtain ⟨_, hle, h⟩ := h
  simp only [check_eq_ok_iff, decide_eq_true_eq] at hmax hle
  simp only [pure_eq_ok, Except.ok.injEq] at h
  refine ⟨?_, hmax⟩
  rw [← h, List.length_take, List.length_drop]
  omega

lemma sysBrk_keeps : HandlerKeeps sysBrk := fun s e s' h => by
  unfold sysBrk at h
  dsimp only at h
  generalize (if s.loadReg regA0 = 0 then 0 else s.loadReg regA0 - s.bus.mmu.allocPtr : U64)
    = increment at h
  split_ifs at h with hneg
  · exact keeps_of_normal h ⟨rfl, rfl, rfl, Or.inl rfl⟩
  · rw [bind_eq_ok_iff] at h
    obtain ⟨⟨base, mmu⟩, halloc, h⟩ := h
    refine keeps_of_normal h ⟨rfl, rfl, rfl, Or.inr ⟨.allocate increment, ?_⟩⟩
    rw [MMU.applyOp, halloc]
    rfl

lemma sysOpen_keeps : HandlerKeeps (sysOpen host) := fun s e s' h => by
  rw [sysOpen, bind_eq_ok_iff] at h
  obtain ⟨p, -, h⟩ := h
  rw [bind_eq_ok_iff] at h
  obtain ⟨file, -, h⟩ := h
  rw [bind_eq_ok_iff] at h
  obtain ⟨_, -, h⟩ := h
  rw [bind_eq_ok_iff] at h
  obtain ⟨_, -, h⟩ := h
  rw [bind_eq_ok_iff] at h
  obtain ⟨_, -, h⟩ := h
  exact keeps_of_normal h ⟨rfl, rfl, rfl, Or.inl rfl⟩

lemma sysClose_keeps : HandlerKeeps sysClose := fun s e s' h => by
  unfold sysClose at h
  dsimp only at h
  split_ifs at h
  · exact keeps_of_normal h ⟨rfl, rfl, rfl, Or.inl rfl⟩
  · exact keeps_of_normal h ⟨rfl, rfl, rfl, Or.inl rfl⟩

lemma sysFstat_keeps : HandlerKeeps (sysFstat host) := fun s e s' h => by
  rw [sysFstat, bind_eq_ok_iff] at h
  obtain ⟨_, -, h⟩ := h
  rw [bind_eq_ok_iff] at h
  obtain ⟨last, -, h⟩ := h
  rw [bind_eq_ok_iff] at h
  obtain ⟨mmu, hmmu, h⟩ := h
  refine keeps_of_normal h ⟨rfl, rfl, rfl, Or.inr ⟨.writeFrom _ ?_ _, hmmu⟩⟩
  rw [length_statBytes]
  decide

lemma sysLseek_keeps : HandlerKeeps sysLseek := fun s e s' h => by
  unfold sysLseek at h
  dsimp only at h
  split at h
  · rw [bind_eq_ok_iff] at h
    obtain ⟨idx, -, h⟩ := h
    exact keeps_of_normal h ⟨rfl, rfl, rfl, Or.inl rfl⟩
  · exact keeps_of_normal h ⟨rfl, rfl, rfl, Or.inl rfl⟩

lemma sysRead_keeps : HandlerKeeps sysRead := fun s e s' h => by
  unfold sysRead at h
  dsimp only at h
  split at h
  · split_ifs at h
    · exact keeps_of_normal h (Keeps.refl s)
    · rw [bind_eq_ok_iff] at h
      obtain ⟨data, hdata, h⟩ := h
      rw [bind_eq_ok_iff] at h
      obtain ⟨mmu, hmmu, h⟩ := h
      obtain ⟨hlen, hmax⟩ := length_slice hdata
      exact keeps_of_normal h ⟨rfl, rfl, rfl, Or.inr ⟨.writeFrom _ (hlen ▸ hmax) _, hmmu⟩⟩
  · cases h

lemma ecallFuzz_keeps : HandlerKeeps (ecallFuzz host) := fun s e s' h => by
  unfold ecallFuzz at h
  dsimp only at h
  split_ifs at h
  · exact sysBrk_keeps s e s' h
  · exact keeps_of_normal h ⟨rfl, rfl, rfl, Or.inl rfl⟩
  · exact sysOpen_keeps s e s' h
  · exact sysClose_keeps s e s' h
  · exact keeps_of_normal h ⟨rfl, rfl, rfl, Or.inl rfl⟩
  · exact sysFstat_keeps s e s' h
  · exact sysLseek_keeps s e s' h
  · exact sysRead_keeps s e s' h

lemma families_keep : Families HandlerKeeps where
  regReg := regReg_keeps
  regImm := regImm_keeps
  shiftImm := shiftImm_keeps
  shiftReg := shiftReg_keeps
  branch := branch_keeps
  dividing := dividing_keeps
  loadUnsigned := loadUnsigned_keeps
  loadSigned := fun bits sz => loadSigned_keeps bits (loadUnsigned_keeps sz)
  storeData := storeData_keeps
  loadReserved := loadReserved_keeps
  storeConditional := storeConditional_keeps
  amo := amo_keeps
  csrModify := csrModify_keeps
  upper := ⟨fun _ _ _ h => keeps_of_normal h ⟨rfl, rfl, rfl, Or.inl rfl⟩,
    fun _ _ _ h => keeps_of_normal h ⟨rfl, rfl, rfl, Or.inl rfl⟩⟩
  jump := ⟨fun _ _ _ h => keeps_of_normal h ⟨rfl, rfl, rfl, Or.inl rfl⟩,
    fun _ _ _ h => keeps_of_normal h ⟨rfl, rfl, rfl, Or.inl rfl⟩⟩
  report := fun _ _ hh => report_keeps hh

/-- The environment call is the one of the build. -/
lemma ecall_keeps (host : Host) : HandlerKeeps (handler host .ECALL) := by
  simp only [handler]
  cases host.build with
  | fuzz => exact ecallFuzz_keeps
  | test => exact fun _ _ _ h => keeps_of_normal h ⟨rfl, rfl, rfl, Or.inl rfl⟩
  | emu => exact ecallEmu_keeps

/-- **Every handler keeps what it should.** -/
theorem handler_keeps (host : Host) (n : IName) : HandlerKeeps (handler host n) := by
  by_cases hecall : n = .ECALL
  · exact hecall ▸ ecall_keeps host
  · by_cases hmret : n = .MRET
    · exact hmret ▸ mret_keeps
    · by_cases hsret : n = .SRET
      · subst hsret
        exact fun _ _ _ h => keeps_of_normal h ⟨rfl, rfl, rfl, Or.inl rfl⟩
      · exact families_keep.handler host hecall hmret hsret

/-! ## Intact emulators -/

/-- What holds of an emulator that was not made by copying. -/
structure Intact (host : Host) (s : VEmu) : Prop where
  instFuncs : s.instFuncs = initFuncMap
  memory : s.bus.mmu.Backed
  devices : s.bus.devices.isNone = decide (host.build = .fuzz)
  decoder : s.decoder.Consistent

lemma Intact.keeps (hs : s.Intact host) (h : Keeps s s') : s'.Intact host where
  instFuncs := h.instFuncs.trans hs.instFuncs
  memory := h.memory.sameShape.backed hs.memory
  devices := h.devices.trans hs.devices
  decoder := h.decoder.symm ▸ hs.decoder

/-- A round is the call of a handler, in a state that has the memory and the handlers of the one
before and has decoded one more word. -/
lemma iterate_keeps (h : s.iterate host = .ok (.next s')) :
    ∃ (w : U32) (s₁ : VEmu), Keeps s₁ s' ∧ s₁.instFuncs = s.instFuncs
      ∧ s₁.bus.mmu = s.bus.mmu ∧ s₁.bus.devices.isNone = s.bus.devices.isNone
      ∧ s₁.decoder = (s.decoder.decode w).2 := by
  obtain ⟨-, _, _, _, devices, w, ins, exp, t, _, _, _, hdev, hhandler, rfl⟩ := iterateWith_cases h
  exact ⟨w, _, (handler_keeps host ins.name _ _ _ hhandler).trans_same rfl rfl rfl, rfl, rfl, hdev,
    rfl⟩

/-- No round changes the storage of memory. -/
lemma iterate_sameShape (h : s.iterate host = .ok (.next s')) :
    s.bus.mmu.SameShape s'.bus.mmu := by
  obtain ⟨w, s₁, hkeeps, -, hmmu, -, -⟩ := iterate_keeps h
  exact hmmu ▸ hkeeps.memory.sameShape

/-- One round keeps an emulator intact. -/
theorem Intact.iterate (hs : s.Intact host) (h : s.iterate host = .ok (.next s')) :
    s'.Intact host := by
  obtain ⟨w, s₁, hkeeps, hfuncs, hmmu, hdev, hdecoder⟩ := iterate_keeps h
  refine Intact.keeps ⟨hfuncs.trans hs.instFuncs, hmmu.symm ▸ hs.memory, hdev.trans hs.devices, ?_⟩
    hkeeps
  rw [hdecoder]
  exact (InstructionDecoder.decode_eq hs.decoder w).2

end VEmu

/-! ## Constructors -/

namespace VEmu

variable {host : Host} {s s' : VEmu}

section Constructors

variable {junk : Junk} {decoder : InstructionDecoder} {hostCalls : ℕ}

lemma Intact.withMmu (hs : s.Intact host) {mmu : MMU} (h : mmu.Backed) :
    (s.withMmu mmu).Intact host := ⟨hs.instFuncs, h, hs.devices, hs.decoder⟩

lemma Intact.loadImage (hs : s.Intact host) {bytes : List U8} (h : s.loadImage bytes = .ok s') :
    s'.Intact host := by
  obtain ⟨mmu, codeSize, pc, hshape, rfl⟩ := loadImage_frame h
  exact ⟨hs.instFuncs, hshape.backed hs.memory, hs.devices, hs.decoder⟩

lemma intact_blank (hd : decoder.Consistent) {fName : List U8} {startPc memSize : U64}
    (h : blank host junk decoder hostCalls fName startPc memSize = .ok s) : s.Intact host := by
  rw [blank, bind_eq_ok_iff] at h
  obtain ⟨bus, hbus, h⟩ := h
  rw [Bus.new, bind_eq_ok_iff] at hbus
  obtain ⟨mmu, hmmu, hbus⟩ := hbus
  obtain rfl := Except.ok.inj hbus
  have hm := MMU.backed_new hmmu
  by_cases hb : host.build = .fuzz
  · simp only [hb, if_true, pure_eq_ok, Except.ok.injEq] at h
    subst h
    exact ⟨rfl, hm, by simp [hb], hd⟩
  · simp only [hb, if_false, pure_eq_ok, Except.ok.injEq] at h
    subst h
    exact ⟨rfl, hm, by simp [hb, initMisa], hd⟩

lemma intact_ofFile (hd : decoder.Consistent) {fName : List U8} {startPc memSize : U64}
    (h : ofFile host junk decoder hostCalls fName startPc memSize = .ok s) : s.Intact host := by
  rw [ofFile, bind_eq_ok_iff] at h
  obtain ⟨s₁, h₁, h⟩ := h
  have hs₁ := intact_blank hd h₁
  split_ifs at h
  · obtain rfl := Except.ok.inj h
    exact hs₁
  · rw [readFile, bind_eq_ok_iff] at h
    obtain ⟨content, -, h⟩ := h
    exact hs₁.loadImage h

lemma Intact.setupStep (hs : s.Intact host) (h : SetupStep s s') : s'.Intact host := by
  cases h with
  | name fName => exact ⟨hs.instFuncs, hs.memory, hs.devices, hs.decoder⟩
  | register r v => exact ⟨hs.instFuncs, hs.memory, hs.devices, hs.decoder⟩
  | allocate h => exact hs.withMmu ((MMU.allocate_sameShape h).backed hs.memory)
  | write h => exact hs.withMmu ((MMU.writeFrom_sameShape h).backed hs.memory)
  | store h => exact hs.keeps (store_keeps h)

lemma Intact.setup (hs : s.Intact host) (h : Relation.ReflTransGen SetupStep s s') :
    s'.Intact host := by
  induction h with
  | refl => exact hs
  | tail _ hstep ih => exact ih.setupStep hstep

lemma intact_ofInfo (hd : decoder.Consistent) {info : FileInfo} {args : List (List U8)}
    {memSize : U64} (h : ofInfo host junk decoder hostCalls info args memSize = .ok s) :
    s.Intact host := by
  obtain ⟨s₀, m, hblank, hload, hsetup⟩ := ofInfo_setup h
  have hs₀ := intact_blank hd hblank
  exact (hs₀.withMmu ((MMU.loadFile_sameShape hload).backed hs₀.memory)).setup hsetup

end Constructors

/-! ## Reachable emulators -/

/-- An emulator that a constructor made, in a process that has decoded some words before. -/
inductive Built (host : Host) : VEmu → Prop
  | ofFile {s : VEmu} {junk : Junk} {history : List U32} {hostCalls : ℕ} {fName : List U8}
      {startPc memSize : U64}
      (h : VEmu.ofFile host junk (.after .init history) hostCalls fName startPc memSize = .ok s) :
      Built host s
  | ofBytes {s : VEmu} {junk : Junk} {history : List U32} {hostCalls : ℕ} {bytes : List U8}
      {startPc memSize : U64}
      (h : VEmu.ofBytes host junk (.after .init history) hostCalls bytes startPc memSize = .ok s) :
      Built host s
  | ofInfo {s : VEmu} {junk : Junk} {history : List U32} {hostCalls : ℕ} {info : FileInfo}
      {args : List (List U8)} {memSize : U64}
      (h : VEmu.ofInfo host junk (.after .init history) hostCalls info args memSize = .ok s) :
      Built host s

/-- The emulator goes one round, or the reading thread stores a character. -/
inductive StepWith (methods : IName → Handler) (host : Host) : VEmu → VEmu → Prop
  | round {s s' : VEmu} (h : iterateWith methods host s = .ok (.next s')) :
      StepWith methods host s s'
  | receive {s : VEmu} {d : Devices} (hd : s.bus.devices = some d) (c : U8) :
      StepWith methods host s
        { s with bus := { s.bus with devices := some { d with uart := d.uart.receive c } } }

abbrev Step (host : Host) : VEmu → VEmu → Prop := StepWith (handler host) host

abbrev Reachable (host : Host) : VEmu → Prop :=
  Transition.Reachable (Built host) (Step host)

lemma Built.intact (h : Built host s) : s.Intact host := by
  have hd : ∀ history, (InstructionDecoder.init.after history).Consistent :=
    InstructionDecoder.consistent_init.after
  cases h with
  | ofFile h => exact intact_ofFile (hd _) h
  | ofBytes h =>
      rw [VEmu.ofBytes, bind_eq_ok_iff] at h
      obtain ⟨s₁, h₁, h⟩ := h
      exact (intact_ofFile (hd _) h₁).loadImage h
  | ofInfo h => exact intact_ofInfo (hd _) h

lemma Step.intact (hs : s.Intact host) (h : Step host s s') : s'.Intact host := by
  cases h with
  | round h => exact hs.iterate h
  | receive hd c =>
      have hdev := hs.devices
      rw [hd] at hdev
      exact ⟨hs.instFuncs, hs.memory, hdev, hs.decoder⟩

/-- **Every reachable emulator is intact.** -/
theorem Reachable.intact (h : Reachable host s) : s.Intact host :=
  h.invariant (fun _ h => h.intact) fun _ _ hs h => h.intact hs

end VEmu

end Vemu
