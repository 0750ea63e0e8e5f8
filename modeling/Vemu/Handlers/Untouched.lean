import Vemu.Handlers.Families

/-!
# What the handlers leave alone

Most handlers write the registers and the bus only.  So they preserve whatever is seen of the
emulator without these (`Unseen.straight`).  Where the program counter is not seen either, so do
the branches and the jumps (`Unseen.common`); where the control registers are not, so do all the
families (`Unseen.families`); and where the mode is not, so does every handler outside the fuzzing
build (`Unseen.handler`).  The environment call of that build changes memory, the table of files and
the exit as well (`Unseen.ecallFuzz`).
-/

namespace Vemu

open Fallible

namespace VEmu

variable {α : Type*} {view : VEmu → α} {s s' t : VEmu} {e : ReturnException}

/-- The handler leaves what is seen of the emulator as it is, whenever it comes to an end. -/
def Preserves (view : VEmu → α) (h : Handler) : Prop :=
  ∀ s e s', h s = .ok (e, s') → view s' = view s

/-- The registers are not seen, and neither is what a load or a store does to the bus. -/
structure Unseen (view : VEmu → α) : Prop where
  iregs : ∀ s iregs, view { s with iregs := iregs } = view s
  load : ∀ {s s' : VEmu} {addr : U64} {sz : ℕ} {r : U64 × ReturnException},
    s.load addr sz = .ok (r, s') → view s' = view s
  store : ∀ {s s' : VEmu} {addr data : U64} {sz : ℕ} {e : ReturnException},
    s.store addr data sz = .ok (e, s') → view s' = view s

/-- Nothing of the bus is seen. -/
lemma Unseen.of_bus (hiregs : ∀ s iregs, view { s with iregs := iregs } = view s)
    (hbus : ∀ s bus, view { s with bus := bus } = view s) : Unseen view where
  iregs := hiregs
  load := by
    intro s s' addr sz r h
    obtain ⟨r', -, h⟩ := bind_eq_ok_iff.mp h
    obtain ⟨-, rfl⟩ := Prod.mk.inj (Except.ok.inj h)
    exact hbus ..
  store := by
    intro s s' addr data sz e h
    obtain ⟨r', -, h⟩ := bind_eq_ok_iff.mp h
    obtain ⟨-, rfl⟩ := Prod.mk.inj (Except.ok.inj h)
    exact hbus ..

lemma preserves_normal (h : normal t = .ok (e, s')) (ht : view t = view s) : view s' = view s := by
  obtain ⟨-, rfl⟩ := Prod.mk.inj (Except.ok.inj h)
  exact ht

lemma preserves_return {r : ReturnException}
    (h : (pure (r, t) : Except Fault (ReturnException × VEmu)) = .ok (e, s'))
    (ht : view t = view s) : view s' = view s := by
  obtain ⟨-, rfl⟩ := Prod.mk.inj (Except.ok.inj h)
  exact ht

namespace Unseen

variable (hview : Unseen view)
include hview

lemma storeReg (s : VEmu) (rd : Reg) (v : U64) : view (s.storeReg rd v) = view s := hview.iregs ..

/-! ## The families -/

lemma regReg (f : U64 → U64 → U64) : Preserves view (regReg f) := fun _ _ _ h =>
  preserves_normal h (hview.storeReg ..)

lemma regImm (f : U64 → U64 → U64) : Preserves view (regImm f) := fun _ _ _ h =>
  preserves_normal h (hview.storeReg ..)

lemma shiftImm (mask : U32) (f : U64 → U8 → U64) : Preserves view (shiftImm mask f) :=
  fun _ _ _ h => preserves_normal h (hview.storeReg ..)

lemma shiftReg (mask : U64) (f : U64 → U8 → U64) : Preserves view (shiftReg mask f) :=
  fun _ _ _ h => preserves_normal h (hview.storeReg ..)

omit hview in
lemma branch (hpc : ∀ s pc, view { s with pc := pc } = view s) (taken : U64 → U64 → Bool) :
    Preserves view (branch taken) := fun s _ _ h => by
  refine preserves_normal h ?_
  split
  · exact hpc ..
  · rfl

lemma upper : Preserves view LUI ∧ Preserves view AUIPC :=
  ⟨fun _ _ _ h => preserves_normal h (hview.storeReg ..),
    fun _ _ _ h => preserves_normal h (hview.storeReg ..)⟩

omit hview in
lemma report {h : Handler} {r : ReturnException} (hh : ∀ s, h s = .ok (r, s)) : Preserves view h :=
  fun s _ _ heq => preserves_return ((hh s).symm.trans heq) rfl

lemma loadUnsigned (sz : ℕ) : Preserves view (loadUnsigned sz) := fun s e s' h => by
  rw [VEmu.loadUnsigned, bind_eq_ok_iff] at h
  obtain ⟨⟨⟨res, exp⟩, s₁⟩, h₁, h⟩ := h
  have hload := hview.load h₁
  dsimp only at h
  split_ifs at h
  · exact preserves_return h hload
  · exact preserves_normal h ((hview.storeReg ..).trans hload)

lemma loadSigned (bits : ℕ) {unsigned : Handler} (hu : Preserves view unsigned) :
    Preserves view (loadSigned bits unsigned) := fun s e s' h => by
  rw [VEmu.loadSigned, bind_eq_ok_iff] at h
  obtain ⟨⟨e₁, s₁⟩, h₁, h⟩ := h
  exact preserves_normal h ((hview.storeReg ..).trans (hu s e₁ s₁ h₁))

lemma loadReserved (sz : ℕ) : Preserves view (loadReserved sz) := fun s e s' h => by
  unfold VEmu.loadReserved at h
  dsimp only at h
  split_ifs at h
  · exact preserves_return h rfl
  · rw [bind_eq_ok_iff] at h
    obtain ⟨⟨⟨res, exp⟩, s₁⟩, h₁, h⟩ := h
    have hload := hview.load h₁
    dsimp only at h
    split_ifs at h
    · exact preserves_return h hload
    · exact preserves_normal h ((hview.storeReg ..).trans hload)

lemma storeConditional (sz : ℕ) : Preserves view (storeConditional sz) := fun s e s' h => by
  unfold VEmu.storeConditional at h
  dsimp only at h
  split_ifs at h
  · exact preserves_return h rfl
  · rw [bind_eq_ok_iff] at h
    obtain ⟨⟨exp, s₁⟩, h₁, h⟩ := h
    exact preserves_return h ((hview.storeReg ..).trans (hview.store h₁))

lemma amo (sz : ℕ) (old : U64 → U64) (f : U64 → U64 → U64) : Preserves view (amo sz old f) :=
  fun s e s' h => by
  unfold VEmu.amo at h
  dsimp only at h
  split_ifs at h
  · exact preserves_return h rfl
  · rw [bind_eq_ok_iff] at h
    obtain ⟨⟨⟨tmp, exp⟩, s₁⟩, h₁, h⟩ := h
    have hload := hview.load h₁
    dsimp only at h
    split_ifs at h
    · exact preserves_return h hload
    · rw [bind_eq_ok_iff] at h
      obtain ⟨⟨exp', s₂⟩, h₂, h⟩ := h
      have hstore := (hview.store h₂).trans hload
      dsimp only at h
      split_ifs at h
      · exact preserves_return h hstore
      · exact preserves_normal h ((hview.storeReg ..).trans hstore)

/-- **The straight families** preserve what is seen without the registers and the bus. -/
lemma straight : StraightFamilies (Preserves view) where
  regReg := hview.regReg
  regImm := hview.regImm
  shiftImm := hview.shiftImm
  shiftReg := hview.shiftReg
  loadUnsigned := hview.loadUnsigned
  loadSigned := fun bits sz => hview.loadSigned bits (hview.loadUnsigned sz)
  storeData := fun _ _ _ _ _ h => hview.store h
  loadReserved := hview.loadReserved
  storeConditional := hview.storeConditional
  amo := hview.amo
  upper := hview.upper
  report := fun _ _ hh => report hh

/-- **The common families** do, if the program counter is not seen either. -/
lemma common (hpc : ∀ s pc, view { s with pc := pc } = view s) : CommonFamilies (Preserves view) where
  toStraightFamilies := hview.straight
  branch := branch hpc
  jump := ⟨fun _ _ _ h => preserves_normal h ((hpc ..).trans (hview.storeReg ..)),
    fun _ _ _ h => preserves_normal h ((hpc ..).trans (hview.storeReg ..))⟩

lemma dividing (hcsrs : ∀ s csrs, view { s with csrs := csrs } = view s) (f : U64 → U64 → Option U64) :
    Preserves view (dividing f) := fun s e s' h => by
  unfold VEmu.dividing at h
  split at h
  · exact preserves_normal h (hview.storeReg ..)
  · exact preserves_normal h ((hview.storeReg ..).trans (hcsrs ..))

lemma csrModify (hcsrs : ∀ s csrs, view { s with csrs := csrs } = view s) (operand : VEmu → U64)
    (f : U64 → U64 → U64) : Preserves view (csrModify operand f) := fun _ _ _ h =>
  preserves_normal h ((hview.storeReg ..).trans (hcsrs ..))

/-- **All the families** do, if the control registers are not seen either. -/
lemma families (hpc : ∀ s pc, view { s with pc := pc } = view s)
    (hcsrs : ∀ s csrs, view { s with csrs := csrs } = view s) : Families (Preserves view) where
  regReg := hview.regReg
  regImm := hview.regImm
  shiftImm := hview.shiftImm
  shiftReg := hview.shiftReg
  branch := branch hpc
  dividing := hview.dividing hcsrs
  loadUnsigned := hview.loadUnsigned
  loadSigned := fun bits sz => hview.loadSigned bits (hview.loadUnsigned sz)
  storeData := fun _ _ _ _ _ h => hview.store h
  loadReserved := hview.loadReserved
  storeConditional := hview.storeConditional
  amo := hview.amo
  csrModify := hview.csrModify hcsrs
  upper := hview.upper
  jump := (hview.common hpc).jump
  report := fun _ _ hh => report hh

/-- **Every handler** outside the fuzzing build does, if the mode is not seen either, and a test
can be over. -/
theorem handler {host : Host} (hb : host.build ≠ .fuzz)
    (hpc : ∀ s pc, view { s with pc := pc } = view s)
    (hcsrs : ∀ s csrs, view { s with csrs := csrs } = view s)
    (hmode : ∀ s mode, view { s with mode := mode } = view s)
    (hdone : ∀ s, view { s with testFlagDone := true } = view s) (n : IName) :
    Preserves view (handler host n) := by
  have hreturn : ∀ (s : VEmu) (csrs : Csrs) (mode : Mode) (pc : U64),
      view { s with pc := pc, mode := mode, csrs := csrs } = view s :=
    fun s csrs mode pc => (hcsrs _ csrs).trans ((hmode _ mode).trans (hpc s pc))
  by_cases hecall : n = .ECALL
  · subst hecall
    simp only [VEmu.handler]
    cases hbuild : host.build with
    | fuzz => exact absurd hbuild hb
    | test => exact fun s _ _ h => preserves_normal h (hdone s)
    | emu =>
        intro s e s' h
        change ecallEmu s = .ok (e, s') at h
        unfold ecallEmu at h
        split at h
        all_goals exact preserves_return h rfl
  · by_cases hmret : n = .MRET
    · subst hmret
      intro s e s' h
      obtain ⟨mode, -, h⟩ := bind_eq_ok_iff.mp h
      exact preserves_normal h (hreturn s _ mode _)
    · by_cases hsret : n = .SRET
      · subst hsret
        exact fun s _ _ h => preserves_normal h (hreturn s _ _ _)
      · exact (hview.families hpc hcsrs).handler host hecall hmret hsret

/-- **The system calls** do, if memory, the table of files and the exit are not seen either. -/
lemma ecallFuzz (host : Host) (hmmu : ∀ s mmu, view (s.withMmu mmu) = view s)
    (hfiles : ∀ s files calls, view { s with fileTable := files, hostCalls := calls } = view s)
    (hexit : ∀ s code, view (s.exitEmu code) = view s) : Preserves view (ecallFuzz host) :=
  fun s e s' h => by
  unfold VEmu.ecallFuzz at h
  dsimp only at h
  split_ifs at h
  · rw [sysBrk_eq] at h
    split_ifs at h
    · exact preserves_normal h (hview.storeReg ..)
    · obtain ⟨r, -, h⟩ := bind_eq_ok_iff.mp h
      exact preserves_normal h ((hview.storeReg ..).trans (hmmu ..))
  · exact preserves_normal h (hview.storeReg ..)
  · obtain ⟨p, -, h⟩ := bind_eq_ok_iff.mp h
    obtain ⟨file, -, h⟩ := bind_eq_ok_iff.mp h
    obtain ⟨_, -, h⟩ := bind_eq_ok_iff.mp h
    obtain ⟨_, -, h⟩ := bind_eq_ok_iff.mp h
    obtain ⟨_, -, h⟩ := bind_eq_ok_iff.mp h
    exact preserves_normal h ((hview.storeReg ..).trans (hfiles ..))
  · unfold sysClose at h
    dsimp only at h
    split_ifs at h
    · exact preserves_normal h (hfiles s _ s.hostCalls)
    · exact preserves_normal h (hexit ..)
  · exact preserves_normal h (hexit ..)
  · obtain ⟨_, -, h⟩ := bind_eq_ok_iff.mp h
    obtain ⟨last, -, h⟩ := bind_eq_ok_iff.mp h
    obtain ⟨mmu, -, h⟩ := bind_eq_ok_iff.mp h
    exact preserves_normal h
      ((hview.storeReg ..).trans ((hfiles (s.withMmu mmu) s.fileTable _).trans (hmmu ..)))
  · unfold sysLseek at h
    dsimp only at h
    split at h
    · obtain ⟨idx, -, h⟩ := bind_eq_ok_iff.mp h
      exact preserves_normal h ((hview.storeReg ..).trans (hfiles s _ s.hostCalls))
    · exact preserves_normal h (hview.storeReg ..)
  · unfold sysRead at h
    dsimp only at h
    split at h
    · split_ifs at h
      · exact preserves_normal h rfl
      · obtain ⟨data, -, h⟩ := bind_eq_ok_iff.mp h
        obtain ⟨mmu, -, h⟩ := bind_eq_ok_iff.mp h
        exact preserves_normal h
          ((hview.storeReg ..).trans ((hfiles (s.withMmu mmu) _ s.hostCalls).trans (hmmu ..)))
    · cases h

end Unseen

end VEmu

end Vemu
