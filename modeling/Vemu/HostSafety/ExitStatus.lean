import Vemu.HostSafety.Rounds
import Vemu.Refinement.Step

/-!
# The exit status

A guest that calls `exit` makes one more round, which only returns.  What `run` returns should be
the low byte of `a0`; the source reduces the number by 255 before it cuts it to a byte.

The two agree on the numbers whose distance from zero is below 255, on those that are 65280 away
from one of them on the same side of zero, and on no others: **`returnsStatus_iff`**.
-/

namespace Vemu

open Fallible

namespace VEmu

variable {host : Host} {s : VEmu}

/-! ## The specification -/

/-- The next instruction is a call of `exit`. -/
structure CallsExit (s : VEmu) : Prop where
  running : s.hasExited = false
  fetched : s.FetchMet
  decoded : ∃ ins, decodeOf s.nextWord = .ok ins ∧ ins.name = .ECALL
  number : s.loadReg regA7 = syscallNrExit

/-- The status of a process that exits with a number. -/
def status (a0 : U64) : U32 := BitVec.ofNat 32 (a0.toNat % 256)

/-- **What is asked of a call of `exit`**: the guest does nothing after it, and `run` returns the
status. -/
structure ReturnsStatus (host : Host) (s : VEmu) : Prop where
  stopped : ∃ s', s.iterate host = .ok (.next s') ∧ s'.hasExited = true
    ∧ s'.iregs = s.iregs ∧ s'.bus = s.bus
  returned : ∀ rounds,
    run host (rounds + 2) s = .ok (.returned (status (s.loadReg regA0)))

/-! ## The number -/

/-- What the call makes of `a0`. -/
def reducedStatus (a0 : U64) : U8 := (((a0.setWidth 32 : U32)).srem 255).setWidth 8

/-- Modulo a divisor of `2 ^ w`, signed and unsigned numbers agree. -/
lemma toInt_emod_of_dvd {w : ℕ} (x : BitVec w) {n : ℤ} (h : n ∣ 2 ^ w) :
    x.toInt % n = (x.toNat : ℤ) % n := by
  obtain ⟨k, hk⟩ := h
  rw [BitVec.toInt_eq_toNat_cond]
  split_ifs
  · rfl
  · push_cast
    rw [hk, Int.sub_mul_emod_self_left]

lemma toNat_reducedStatus (a0 : U64) :
    ((reducedStatus a0).toNat : ℤ) = (a0.setWidth 32 : U32).toInt.tmod 255 % 256 := by
  have hrem : ((a0.setWidth 32 : U32).srem 255).toInt = (a0.setWidth 32 : U32).toInt.tmod 255 :=
    BitVec.toInt_srem _ _
  rw [← hrem, toInt_emod_of_dvd _ ⟨2 ^ 24, by norm_num⟩, reducedStatus, BitVec.toNat_setWidth]
  push_cast
  rfl

/-- The low byte of a number is that of its low word. -/
lemma toInt_setWidth_emod (a0 : U64) :
    (a0.setWidth 32 : U32).toInt % 256 = (a0.toNat : ℤ) % 256 := by
  rw [toInt_emod_of_dvd _ ⟨2 ^ 24, by norm_num⟩, BitVec.toNat_setWidth]
  push_cast
  exact Int.emod_emod_of_dvd _ ⟨2 ^ 24, by norm_num⟩

/-- A remainder by 255, rounded toward zero, has the low byte of the number only where the quotient
is a multiple of 256. -/
lemma tmod_emod_eq_iff (v : ℤ) : v.tmod 255 % 256 = v % 256 ↔ v.natAbs % 65280 < 255 := by
  rcases Int.natAbs_eq v with h | h
  · rw [h, Int.tmod_eq_emod_of_nonneg (by omega)]
    omega
  · rw [h, Int.neg_tmod, Int.tmod_eq_emod_of_nonneg (by omega)]
    omega

/-- Reducing a number keeps its status. -/
def StatusKept (a0 : U64) : Prop := (a0.setWidth 32 : U32).toInt.natAbs % 65280 < 255

instance (a0 : U64) : Decidable (StatusKept a0) := inferInstanceAs (Decidable (_ < _))

lemma reducedStatus_eq_iff (a0 : U64) :
    (reducedStatus a0).setWidth 32 = status a0 ↔ StatusKept a0 := by
  have hbyte := (reducedStatus a0).isLt
  have hvalue : (reducedStatus a0).setWidth 32 = status a0
      ↔ (reducedStatus a0).toNat = a0.toNat % 256 := by
    rw [← BitVec.toNat_inj, status, BitVec.toNat_setWidth, BitVec.toNat_ofNat]
    omega
  have hlow := toInt_setWidth_emod a0
  have hreduced := toNat_reducedStatus a0
  rw [hvalue, StatusKept, ← tmod_emod_eq_iff]
  omega

/-! ## The call -/

lemma iterate_of_execute {s' : VEmu} (hb : host.build = .fuzz) (hrunning : s.hasExited = false)
    (h : s.execute host = normal s') :
    s.iterate host = .ok (.next { s' with pc := s'.pc + 4 }) := by
  have hpoll : s.poll host = .ok s := if_pos hb
  rw [iterate, iterateWith, if_neg (by simp [hrunning]), hpoll, ok_bind, if_neg (by simp [hb]),
    ← execute, h, normal, ok_bind]
  dsimp only
  rw [afterwards_normal, ok_bind]
  rfl

/-- After the call the emulator has exited, with the reduced number. -/
lemma iterate_exit (hb : host.build = .fuzz) (hs : s.Intact host) (h : s.CallsExit) :
    ∃ s', s.iterate host = .ok (.next s') ∧ s'.hasExited = true
      ∧ s'.exitCode = reducedStatus (s.loadReg regA0) ∧ s'.iregs = s.iregs ∧ s'.bus = s.bus := by
  obtain ⟨ins, hins, hname⟩ := h.decoded
  have hmem : IName.ECALL ∈ s.instFuncs := by
    rw [hs.instFuncs, mem_initFuncMap]
    decide
  have hexec : s.execute host = normal
      ({ s with
          hexInstr := s.nextWord, currInstr := ins
          decoder := (s.decoder.decode s.nextWord).2 }.exitEmu
        (reducedStatus (s.loadReg regA0))) := by
    have hecall : ecallFuzz host { s with
          hexInstr := s.nextWord, currInstr := ins
          decoder := (s.decoder.decode s.nextWord).2 }
        = sysExit { s with
          hexInstr := s.nextWord, currInstr := ins
          decoder := (s.decoder.decode s.nextWord).2 } := by
      have hnr : VEmu.loadReg { s with
          hexInstr := s.nextWord, currInstr := ins
          decoder := (s.decoder.decode s.nextWord).2 } regA7 = syscallNrExit := h.number
      simp only [ecallFuzz, hnr]
      rfl
    rw [execute_of_fetchMet hs hb h.fetched, hins, ok_bind, dispatch, dispatchWith, hname,
      if_pos hmem, handler, hb]
    exact hecall
  exact ⟨_, iterate_of_execute hb h.running hexec, rfl, rfl, rfl, rfl⟩

lemma run_of_exited {code : U32} {s' : VEmu} (h : s.iterate host = .ok (.next s'))
    (hexited : s'.hasExited = true) (hcode : s'.exitCode.setWidth 32 = code) (rounds : ℕ) :
    run host (rounds + 2) s = .ok (.returned code) := by
  rw [run, h, ok_bind]
  dsimp only
  rw [run, iterate, iterateWith, if_pos hexited, hcode]
  rfl

/-- **The exit status** is preserved exactly where reducing the number keeps it. -/
theorem returnsStatus_iff (hb : host.build = .fuzz) (hs : s.Intact host) (h : s.CallsExit) :
    ReturnsStatus host s ↔ StatusKept (s.loadReg regA0) := by
  obtain ⟨s', hnext, hexited, hcode, hregs, hbus⟩ := iterate_exit hb hs h
  rw [← reducedStatus_eq_iff]
  constructor
  · intro hreturns
    have hrun := run_of_exited hnext hexited rfl 0
    rw [hreturns.returned 0, hcode] at hrun
    exact (Turn.returned.inj (Except.ok.inj hrun)).symm
  · intro hkept
    exact ⟨⟨s', hnext, hexited, hregs, hbus⟩,
      run_of_exited hnext hexited ((congrArg _ hcode).trans hkept)⟩

/-! ## Two guests that exit -/

/-- `ecall`, with `exit` in `a7` and a number in `a0`. -/
def exitingWith (a0 : U64) : VEmu := ((onePage 0x00000073 0).storeReg regA7 syscallNrExit).storeReg regA0 a0

lemma intact_exitingWith (a0 : U64) : (exitingWith a0).Intact (.bare .fuzz) :=
  ⟨rfl, (intact_onePage 0x00000073 0).memory, rfl, (intact_onePage 0x00000073 0).decoder⟩

lemma callsExit_exitingWith (a0 : U64) : (exitingWith a0).CallsExit where
  running := rfl
  fetched := by
    change (onePage 0x00000073 0).FetchMet
    decide
  decoded := by
    have hword : (onePage 0x00000073 0).nextWord = 0x00000073 := by decide +kernel
    refine ⟨⟨.I, .ECALL, fieldsOf 0x00000073, "ECALL"⟩, ?_, rfl⟩
    change decodeOf (onePage 0x00000073 0).nextWord = _
    rw [hword]
    decide +kernel
  number := rfl

lemma loadReg_exitingWith (a0 : U64) : (exitingWith a0).loadReg regA0 = a0 :=
  loadReg_storeReg_self _ (by decide) a0

theorem returnsStatus_three : ReturnsStatus (.bare .fuzz) (exitingWith 3) :=
  (returnsStatus_iff rfl (intact_exitingWith 3) (callsExit_exitingWith 3)).mpr (by decide)

/-- A guest that exits with 255 is reported as one that exits with zero. -/
theorem not_returnsStatus_255 :
    (exitingWith 255).CallsExit ∧ run (.bare .fuzz) 2 (exitingWith 255) = .ok (.returned 0)
      ∧ ¬ ReturnsStatus (.bare .fuzz) (exitingWith 255) := by
  obtain ⟨s', hnext, hexited, hcode, -, -⟩ :=
    iterate_exit rfl (intact_exitingWith 255) (callsExit_exitingWith 255)
  have hzero : run (.bare .fuzz) 2 (exitingWith 255) = .ok (.returned 0) := by
    refine run_of_exited hnext hexited ?_ 0
    rw [hcode, loadReg_exitingWith]
    decide
  refine ⟨callsExit_exitingWith 255, hzero, fun h => ?_⟩
  have hstatus := h.returned 0
  rw [hzero, loadReg_exitingWith] at hstatus
  exact absurd (Turn.returned.inj (Except.ok.inj hstatus)) (by decide)

end VEmu

end Vemu
