import Vemu.HostSafety.Rounds
import Vemu.Refinement.Access
import Vemu.Trap.Rounds

/-!
# What is executed

The instruction word should come from four bytes of RAM that carry `PERM_EXEC` and are
initialised, and any other fetch should report `InstructionAccessFault`.

`load_insn` looks at no permission and at no bound, and always reports a normal return; so outside
the test build a fetch is right exactly where the bytes are executable.  The test build fetches
over the bus, with the checks of a data access: there the bytes must be readable as well, and
below the last byte of RAM.  **`fetchesCode_run_iff`** says so of every emulator of a run, at its
fetches and in between; the run goes on after an interrupt and after a trap, whatever comes of an
undefined shift.
-/

namespace Vemu

open Fallible Transition

namespace VEmu

variable {shift : U64 → Bool} {host : Host} {s s' : VEmu}

/-- The permissions of the `k`-th byte from the program counter on. -/
def pcPerm (s : VEmu) (k : ℕ) : U8 := s.bus.mmu.bytePermission.data (s.pc.toNat + k)

/-- The four bytes at the program counter are inside RAM, executable and initialised. -/
structure Executable (s : VEmu) : Prop where
  inside : s.pc.toNat + 4 ≤ s.bus.mmu.ramSize.toNat
  exec : ∀ k < 4, s.pcPerm k &&& permExec ≠ 0
  init : ∀ k < 4, s.pcPerm k &&& permRaw = 0

/-- **The specification.**  The fetch reports a normal return where the bytes are executable and
an access fault of the instruction elsewhere, and no other word goes to the decoder. -/
structure FetchesCode (host : Host) (s : VEmu) : Prop where
  normal : s.Executable → ∃ w, s.fetch host = .ok ((w, .NormalExecutionReturn), s)
  fault : ¬ s.Executable → ∃ w, s.fetch host = .ok ((w, .InstructionAccessFault), s)
  decoded : ∀ w e, s.fetch host = .ok ((w, e), s) → isFatal e = false → s.Executable

/-- The condition: the bytes are executable and, where they are fetched over the bus, can be read
there. -/
structure CodeAhead (host : Host) (s : VEmu) : Prop where
  executable : s.Executable
  loaded : host.build = .test → s.bus.routesToRam s.pc = true ∧ s.bus.mmu.Fits s.pc 4
    ∧ ∀ k < 4, s.pcPerm k &&& permRead ≠ 0

/-! ## The fetch of each build -/

lemma Executable.fetchMet (h : s.Executable) : s.FetchMet := by
  intro k hk
  have hsize := s.bus.mmu.ramSize.isLt
  have hinside := h.inside
  rw [Loop.toNat_add_ofNat_of_le (by omega)]
  omega

/-- Without the bus, whatever can be fetched is reported as normal. -/
lemma fetch_direct (hb : host.build ≠ .test) {w : U32} {e : ReturnException}
    (h : s.fetch host = .ok ((w, e), s')) : e = .NormalExecutionReturn := by
  rw [fetch, if_neg hb, bind_eq_ok_iff] at h
  obtain ⟨r, hload, h⟩ := h
  simp only [MMU.loadInsn, bind_eq_ok_iff] at hload
  obtain ⟨_, _, _, _, _, _, _, _, hload⟩ := hload
  obtain rfl := Except.ok.inj hload
  exact (Prod.mk.inj (Prod.mk.inj (Except.ok.inj h)).1).2.symm

lemma fetchesCode_direct (hm : s.bus.mmu.Backed) (hb : host.build ≠ .test) :
    FetchesCode host s ↔ s.Executable := by
  constructor
  · intro h
    by_contra hnot
    obtain ⟨w, hfetch⟩ := h.fault hnot
    cases fetch_direct hb hfetch
  · intro h
    refine ⟨fun _ => ⟨s.nextWord, ?_⟩, fun hnot => absurd h hnot, fun _ _ _ _ => h⟩
    rw [fetch, if_neg hb, loadInsn_ok hm h.fetchMet]
    rfl

/-- Over the bus, a fetch is a load of a word. -/
lemma fetch_over_bus (hb : host.build = .test) :
    s.fetch host = if s.bus.routesToRam s.pc then
        s.bus.mmu.load s.pc 32 >>= fun (w, e) => .ok ((w.setWidth 32, e), s)
      else .ok ((0, .LoadAccessFault), s) := by
  rw [fetch, if_pos hb, load, Bus.load_word]
  split_ifs
  · cases s.bus.mmu.load s.pc 32 <;> rfl
  · rfl

/-- The bus never reports what the specification asks for. -/
lemma load_word_report {m : MMU} (hm : m.Backed) {addr : U64} {r : U64 × ReturnException}
    (h : m.load addr 32 = .ok r) : r.2 ≠ .InstructionAccessFault := by
  have hsz : MMU.sizeBytes 32 = some 4 := rfl
  by_cases hf : m.Fits addr 4
  · rw [MMU.load_of_fits hm hsz hf] at h
    obtain rfl := Except.ok.inj h
    show MMU.readException _ ≠ _
    generalize (_, _) = perms
    rcases perms with ⟨_ | _, _ | _⟩ <;> decide
  · by_cases hw : m.Wraps addr 4
    · rw [MMU.load_of_wraps hsz hw] at h
      obtain rfl := Except.ok.inj h
      decide
    · rw [MMU.load_of_not hsz hf hw] at h
      cases h

lemma fetchesCode_over_bus (hm : s.bus.mmu.Backed) (hb : host.build = .test) :
    FetchesCode host s ↔ s.Executable ∧ s.bus.routesToRam s.pc = true ∧ s.bus.mmu.Fits s.pc 4
      ∧ ∀ k < 4, s.pcPerm k &&& permRead ≠ 0 := by
  have hsz : MMU.sizeBytes 32 = some 4 := rfl
  constructor
  · intro h
    have hexec : s.Executable := by
      by_contra hnot
      obtain ⟨w, hfetch⟩ := h.fault hnot
      rw [fetch_over_bus hb] at hfetch
      split_ifs at hfetch
      · obtain ⟨⟨w', e⟩, hload, hfetch⟩ := bind_eq_ok_iff.mp hfetch
        obtain ⟨-, rfl⟩ := Prod.mk.inj (Prod.mk.inj (Except.ok.inj hfetch)).1
        exact load_word_report hm hload rfl
      · cases hfetch
    obtain ⟨w, hfetch⟩ := h.normal hexec
    rw [fetch_over_bus hb] at hfetch
    split_ifs at hfetch with hram
    · obtain ⟨⟨w', e⟩, hload, hfetch⟩ := bind_eq_ok_iff.mp hfetch
      obtain ⟨-, rfl⟩ := Prod.mk.inj (Prod.mk.inj (Except.ok.inj hfetch)).1
      have hfits : s.bus.mmu.Fits s.pc 4 := by
        by_contra hf
        have hwraps : ¬ s.bus.mmu.Wraps s.pc 4 := by
          have hsize := s.bus.mmu.ramSize.isLt
          have hinside := hexec.inside
          rintro ⟨hw, -⟩
          omega
        rw [MMU.load_of_not hsz hf hwraps] at hload
        cases hload
      rw [MMU.load_of_fits hm hsz hfits] at hload
      have hout := (Prod.mk.inj (Except.ok.inj hload)).2
      exact ⟨hexec, hram, hfits, (MMU.readOutcome_normal_iff.mp hout).1⟩
    · cases hfetch
  · rintro ⟨hexec, hram, hfits, hread⟩
    refine ⟨fun _ => ⟨(MMU.assemble (s.bus.mmu.bytesAt s.pc 4)).setWidth 32, ?_⟩,
      fun hnot => absurd hexec hnot, fun _ _ _ _ => hexec⟩
    have hout := MMU.readOutcome_normal_iff.mpr ⟨hread, hexec.init⟩
    rw [fetch_over_bus hb, if_pos hram, MMU.load_of_fits hm hsz hfits, hout]
    rfl

/-- **When a fetch is right.** -/
theorem fetchesCode_iff (hm : s.bus.mmu.Backed) : FetchesCode host s ↔ CodeAhead host s := by
  by_cases hb : host.build = .test
  · rw [fetchesCode_over_bus hm hb]
    exact ⟨fun h => ⟨h.1, fun _ => h.2⟩, fun h => ⟨h.executable, h.loaded hb⟩⟩
  · rw [fetchesCode_direct hm hb]
    exact ⟨fun h => ⟨h, fun h' => absurd h' hb⟩, fun h => h.executable⟩

/-! ## Runs -/

/-- **Only executable memory is executed** in a run exactly if it always finds code ahead: between
two events and at each fetch the four bytes at the program counter are executable and initialised
and, in the test build, a data access could read them. -/
theorem fetchesCode_run_iff (shift : U64 → Bool) (hs : Built host s) (ops : List Event) :
    (AllStates (stepNoting shift host) (Between (FetchesCode host)) (.next s, []) ops
        ∧ AllTries (stepNoting shift host) (AtFetch shift host (FetchesCode host)) (.next s, []) ops)
      ↔ AllStates (stepNoting shift host) (Between (CodeAhead host)) (.next s, []) ops
        ∧ AllTries (stepNoting shift host) (AtFetch shift host (CodeAhead host)) (.next s, []) ops := by
  have hiff : ∀ f : VEmu, f.Intact host → (FetchesCode host f ↔ CodeAhead host f) :=
    fun f hf => fetchesCode_iff hf.memory
  exact and_congr (between_congr hiff hs.intact ops) (atFetch_congr hiff hs.intact ops)

/-! ## A program and a jump to the stack -/

instance (s : VEmu) : Decidable s.Executable :=
  decidable_of_iff (s.pc.toNat + 4 ≤ s.bus.mmu.ramSize.toNat
      ∧ (∀ k < 4, s.pcPerm k &&& permExec ≠ 0) ∧ ∀ k < 4, s.pcPerm k &&& permRaw = 0)
    ⟨fun h => ⟨h.1, h.2.1, h.2.2⟩, fun h => ⟨h.inside, h.exec, h.init⟩⟩

instance (host : Host) (s : VEmu) : Decidable (CodeAhead host s) :=
  decidable_of_iff (s.Executable ∧ (host.build = .test → s.bus.routesToRam s.pc = true
      ∧ s.bus.mmu.Fits s.pc 4 ∧ ∀ k < 4, s.pcPerm k &&& permRead ≠ 0))
    ⟨fun h => ⟨h.1, h.2⟩, fun h => ⟨h.executable, h.loaded⟩⟩

/-- A run in which every fetch finds code ahead. -/
def FindsCode (host : Host) (ops : List Event) (s : VEmu) : Prop :=
  AllStates (stepNoting (fun _ => false) host) (Between (CodeAhead host)) (.next s, []) ops
    ∧ AllTries (stepNoting (fun _ => false) host) (AtFetch (fun _ => false) host (CodeAhead host))
      (.next s, []) ops

instance (host : Host) (ops : List Event) (s : VEmu) : Decidable (FindsCode host ops s) :=
  inferInstanceAs (Decidable (_ ∧ _))

/-- A program that jumps to itself is fetched from executable memory, round after round. -/
theorem fetchesCode_run_oneWord :
    ∃ s, ofInfo (.bare .emu) .zero (.after .init []) 0 (oneWord 0x0000006F) [] 0x200000 = .ok s
      ∧ AllStates (stepNoting (fun _ => false) (.bare .emu)) (Between (FetchesCode (.bare .emu)))
        (.next s, []) [.round, .receive 0x61, .round]
      ∧ AllTries (stepNoting (fun _ => false) (.bare .emu))
        (AtFetch (fun _ => false) (.bare .emu) (FetchesCode (.bare .emu))) (.next s, [])
        [.round, .receive 0x61, .round] := by
  have hview : ((ofInfo (.bare .emu) .zero (.after .init []) 0 (oneWord 0x0000006F) [] 0x200000)
      >>= fun s => .ok (decide (FindsCode (.bare .emu) [.round, .receive 0x61, .round] s)))
      = .ok true := by
    decide +kernel
  obtain ⟨s, hs, hcode⟩ := bind_eq_ok_iff.mp hview
  exact ⟨s, hs, (fetchesCode_run_iff (fun _ => false) (.ofInfo hs) _).mpr
    (of_decide_eq_true (Except.ok.inj hcode))⟩

/-- `jalr x0, 0(x2)` jumps to the stack, and the words there are fetched as instructions. -/
theorem not_fetchesCode_stack :
    ∃ s s', ofInfo (.bare .emu) .zero (.after .init []) 0 (oneWord 0x00010067) [] 0x200000 = .ok s
      ∧ s.iterate (.bare .emu) = .ok (.next s')
      ∧ (∃ w, s'.fetch (.bare .emu) = .ok ((w, .NormalExecutionReturn), s'))
      ∧ ¬ s'.Executable ∧ ¬ FetchesCode (.bare .emu) s' := by
  have hview : ((ofInfo (.bare .emu) .zero (.after .init []) 0 (oneWord 0x00010067) [] 0x200000)
      >>= fun s => s.iterate (.bare .emu) >>= fun turn => orFault .exitFailure turn.state
        >>= fun s' => s'.fetch (.bare .emu) >>= fun r => .ok (r.1.2, decide s'.Executable))
      = .ok (.NormalExecutionReturn, false) := by
    decide +kernel
  obtain ⟨s, hs, hview⟩ := bind_eq_ok_iff.mp hview
  obtain ⟨turn, hturn, hview⟩ := bind_eq_ok_iff.mp hview
  cases turn with
  | returned code => cases hview
  | next s' =>
      rw [Turn.state, orFault_some, ok_bind] at hview
      obtain ⟨⟨⟨w, e⟩, s''⟩, hfetch, hview⟩ := bind_eq_ok_iff.mp hview
      obtain rfl := fetch_frame hfetch
      obtain ⟨rfl, hexec⟩ := Prod.mk.inj (Except.ok.inj hview)
      have hnot := of_decide_eq_false hexec
      exact ⟨s, _, hs, hturn, ⟨w, hfetch⟩, hnot, fun h => hnot (h.decoded w _ hfetch rfl)⟩

end VEmu

end Vemu
