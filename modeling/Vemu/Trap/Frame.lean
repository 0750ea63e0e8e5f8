import Vemu.Frame
import Vemu.Handlers.Untouched

/-!
# What moves the mode and ends the run

Outside the fuzzing build the mode is changed by the trap returns only, and a run is ended by
the environment call of the test build only, which reports a normal return.  So a handler that
raises an exception leaves both alone (`handler_raises`).
-/

namespace Vemu

open Fallible

namespace VEmu

variable {host : Host} {s s' t : VEmu} {e : ReturnException}

/-- The mode and the two flags that end a run are as they were. -/
structure Stays (s s' : VEmu) : Prop where
  mode : s'.mode = s.mode
  hasExited : s'.hasExited = s.hasExited
  testFlagDone : s'.testFlagDone = s.testFlagDone

lemma Stays.refl (s : VEmu) : Stays s s := ⟨rfl, rfl, rfl⟩

lemma Stays.trans (h : Stays s s') (h' : Stays s' t) : Stays s t :=
  ⟨h'.mode.trans h.mode, h'.hasExited.trans h.hasExited, h'.testFlagDone.trans h.testFlagDone⟩

/-- The handler leaves them alone, whenever it comes to an end. -/
def HandlerStays (h : Handler) : Prop := ∀ s e s', h s = .ok (e, s') → Stays s s'

/-- **The families** leave them alone: they write the registers, the bus, the program counter and
the control registers only. -/
lemma families_stay : Families HandlerStays := by
  have hview : Unseen fun s : VEmu => (s.mode, s.hasExited, s.testFlagDone) :=
    .of_bus (fun _ _ => rfl) fun _ _ => rfl
  refine (hview.families (fun _ _ => rfl) fun _ _ => rfl).mono fun h hh s e s' heq => ?_
  have hsame := hh s e s' heq
  simp only [Prod.mk.injEq] at hsame
  exact ⟨hsame.1, hsame.2.1, hsame.2.2⟩

/-- The environment call outside the fuzzer. -/
lemma ecallEmu_stays : HandlerStays ecallEmu := fun s e s' h => by
  have hs : s = s' := by
    unfold ecallEmu at h
    split at h <;> simp only [Except.ok.injEq, Prod.mk.injEq] at h <;> exact h.2
  exact hs ▸ Stays.refl s

/-! ## Outside the fuzzing build -/

lemma mret_reports (h : MRET s = .ok (e, s')) : e = .NormalExecutionReturn := by
  rw [MRET, bind_eq_ok_iff] at h
  obtain ⟨mode, -, h⟩ := h
  exact (Prod.mk.inj (Except.ok.inj h)).1.symm

lemma sret_reports (h : SRET s = .ok (e, s')) : e = .NormalExecutionReturn :=
  (Prod.mk.inj (Except.ok.inj h)).1.symm

/-- Only the trap returns change the mode. -/
lemma handler_mode (hb : host.build ≠ .fuzz) {n : IName} (hmret : n ≠ .MRET) (hsret : n ≠ .SRET)
    (h : handler host n s = .ok (e, s')) : s'.mode = s.mode := by
  by_cases hecall : n = .ECALL
  · subst hecall
    simp only [handler] at h
    cases hbuild : host.build with
    | fuzz => exact absurd hbuild hb
    | test =>
        rw [hbuild] at h
        obtain ⟨-, rfl⟩ := Prod.mk.inj (Except.ok.inj h)
        rfl
    | emu =>
        rw [hbuild] at h
        exact (ecallEmu_stays s e s' h).mode
  · exact (families_stay.handler host hecall hmret hsret s e s' h).mode

/-- **A handler that raises an exception** leaves the mode and the flags alone. -/
theorem handler_raises (hb : host.build ≠ .fuzz) {n : IName} (he : e ≠ .NormalExecutionReturn)
    (h : handler host n s = .ok (e, s')) : Stays s s' := by
  by_cases hecall : n = .ECALL
  · subst hecall
    simp only [handler] at h
    cases hbuild : host.build with
    | fuzz => exact absurd hbuild hb
    | test =>
        rw [hbuild] at h
        exact absurd (Prod.mk.inj (Except.ok.inj h)).1.symm he
    | emu =>
        rw [hbuild] at h
        exact ecallEmu_stays s e s' h
  · by_cases hmret : n = .MRET
    · exact absurd (mret_reports (hmret ▸ h)) he
    · by_cases hsret : n = .SRET
      · exact absurd (sret_reports (hsret ▸ h)) he
      · exact families_stay.handler host hecall hmret hsret s e s' h

end VEmu

end Vemu
