import Vemu.Invariant

/-!
# Forking

A fork is meant to be a second machine in the same state, so that both go on in the same way.
`Guest` is the part of the state that a guest can observe, and `ForkPreserves` that the copy
agrees with the original in it and in all runs.

The copy constructor mentions four members.  The handler table is not among them, so the first
round of every copy ends the process (**`iterate_fork`**): there is no run of a copy at all.  In
particular no emulator that was constructed and run is preserved, whatever the members that are
left out happen to hold, and none at all, a copy of a copy included, is preserved for every
such value: **`fork_never_preserves`**.
-/

namespace Vemu

open Fallible

namespace VEmu

variable {host : Host} {s : VEmu}

/-! ## What the guest can observe -/

/-- The part of the state that a guest can observe.  A byte of RAM without storage has no
value. -/
@[ext]
structure Guest where
  ram : U64 → Option U8
  bytePermission : U64 → Option U8
  allocPtr : U64
  iregs : Reg → U64
  fregs : Reg → U64
  csrs : Csrs
  mode : Mode
  pc : U64
  instFuncs : List IName
  fileTable : List FileHandle
  hasExited : Bool

/-- The byte of a vector at an address inside RAM. -/
def guestByte (m : MMU) (v : ByteVec) (addr : U64) : Option U8 :=
  if addr < m.ramSize then (v.get addr).toOption else none

def guest (s : VEmu) : Guest where
  ram := guestByte s.bus.mmu s.bus.mmu.ram
  bytePermission := guestByte s.bus.mmu s.bus.mmu.bytePermission
  allocPtr := s.bus.mmu.allocPtr
  iregs := s.iregs.data
  fregs := s.fregs
  csrs := s.csrs
  mode := s.mode
  pc := s.pc
  instFuncs := s.instFuncs
  fileTable := s.fileTable
  hasExited := s.hasExited

/-- Two runs went the same way. -/
def SameTurn : Except Fault Turn → Except Fault Turn → Prop
  | .ok (.returned code), .ok (.returned code') => code = code'
  | .ok (.next s), .ok (.next s') => s.guest = s'.guest
  | .error fault, .error fault' => fault = fault'
  | _, _ => False

/-- **What a fork is for**: the copy agrees with the original in all that a guest can observe,
and every run of it goes as the original's. -/
def ForkPreserves (host : Host) (junk : Junk) (s : VEmu) : Prop :=
  (s.fork junk).guest = s.guest
    ∧ ∀ rounds, SameTurn (run host rounds (s.fork junk)) (run host rounds s)

/-! ## What a fork does -/

/-- The copy has no handlers. -/
lemma instFuncs_fork (junk : Junk) (s : VEmu) : (s.fork junk).instFuncs = [] := rfl

/-- **The first round of a copy ends the process.** -/
theorem iterate_fork (host : Host) (junk : Junk) (s : VEmu) :
    ∃ fault, (s.fork junk).iterate host = .error fault := by
  cases h : (s.fork junk).iterate host with
  | error fault => exact ⟨fault, rfl⟩
  | ok turn =>
      exfalso
      have hexit : (s.fork junk).hasExited = false := rfl
      rw [iterate, iterateWith, hexit, if_neg (by simp), bind_eq_ok_iff] at h
      obtain ⟨s₁, h₁, h⟩ := h
      obtain ⟨csrs, devices, -, rfl⟩ := poll_frame h₁
      rw [if_neg (by simp [fork]), bind_eq_ok_iff] at h
      obtain ⟨⟨exp, s₂⟩, h₂, -⟩ := h
      obtain ⟨w, exp₀, csrs', mode, pc, ins, -, -, -, hmem, -⟩ := executeWith_cases h₂
      rw [instFuncs_fork] at hmem
      exact List.not_mem_nil hmem

/-- A run of a copy goes no round. -/
lemma run_fork (host : Host) (junk : Junk) (s : VEmu) (rounds : ℕ) :
    ∃ fault, run host (rounds + 1) (s.fork junk) = .error fault := by
  obtain ⟨fault, h⟩ := iterate_fork host junk s
  exact ⟨fault, by rw [run, h, error_bind]⟩

/-- A copy with the handlers of its original is a copy of a copy. -/
lemma instFuncs_of_guest_fork {junk : Junk} (h : (s.fork junk).guest = s.guest) :
    s.instFuncs = [] := (congrArg Guest.instFuncs h).symm

/-- The control registers of a copy are whatever its storage held. -/
lemma csrs_of_guest_fork {junk : Junk} (h : (s.fork junk).guest = s.guest) :
    junk.csrs = s.csrs := congrArg Guest.csrs h

/-- **A fork never preserves the machine.**  No emulator is preserved for every value of the
members that the copy leaves out; one that was constructed and run is preserved for none, and
no run of its copy goes a single round. -/
theorem fork_never_preserves (host : Host) (s : VEmu) :
    (¬ ∀ junk, ForkPreserves host junk s)
      ∧ (Reachable host s → ∀ junk, ¬ ForkPreserves host junk s
          ∧ ∀ rounds, ∃ fault, run host (rounds + 1) (s.fork junk) = .error fault) := by
  constructor
  · intro h
    -- storage that differs from the original in one control register
    have hcsrs := csrs_of_guest_fork
      (h { Junk.zero with csrs := s.csrs.set 0 (s.csrs.reg 0 + 1) }).1
    have hreg := congrFun (congrArg Csrs.reg hcsrs) 0
    simp [Csrs.set] at hreg
  · intro hs junk
    refine ⟨?_, run_fork host junk s⟩
    rintro ⟨hguest, -⟩
    have hempty := instFuncs_of_guest_fork hguest
    rw [hs.intact.instFuncs] at hempty
    simp [initFuncMap] at hempty

/-- A fresh emulator of the fuzzing build is not preserved. -/
theorem not_forkPreserves_fresh :
    ∃ s, ofFile (.bare .fuzz) .zero .init 0 [] 0x80000000 0x20000 = .ok s
      ∧ ¬ ForkPreserves (.bare .fuzz) .zero s := by
  refine ⟨_, rfl, ?_⟩
  rintro ⟨hguest, -⟩
  have hempty := instFuncs_of_guest_fork hguest
  exact absurd hempty (by decide)

/-- The fresh emulator is reachable, and its copy goes no round. -/
theorem fork_never_preserves_fresh :
    ∃ s, Reachable (.bare .fuzz) s ∧ ¬ ForkPreserves (.bare .fuzz) .zero s
      ∧ ∃ fault, run (.bare .fuzz) 1 (s.fork .zero) = .error fault := by
  have hs : ∃ s, ofFile (.bare .fuzz) .zero (.after .init []) 0 [] 0x80000000 0x20000 = .ok s :=
    ⟨_, rfl⟩
  obtain ⟨s, hs⟩ := hs
  have hreach : Reachable (.bare .fuzz) s := .start (.ofFile hs)
  obtain ⟨hnot, hrun⟩ := (fork_never_preserves (.bare .fuzz) s).2 hreach .zero
  exact ⟨s, hreach, hnot, hrun 0⟩

end VEmu

end Vemu
