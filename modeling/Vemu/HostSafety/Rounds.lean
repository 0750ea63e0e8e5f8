import Vemu.Decoder.Total
import Vemu.HostSafety.Demands

/-!
# What a guest can do to the host

In the fuzzing build the guest's instructions should always end in an outcome for the guest: a
`ReturnException`, or an error value in `a0`.  `HostSafe` says so of the next instruction of an
emulator that has not exited, leaving out the system calls that are not supported.

`Careful` is the condition on the state under which this is the case, instruction by
instruction: the word at the program counter can be fetched, is decoded and has a handler, and
what the handler needs is met.  **`hostSafe_run_iff`** puts the two together along the runs of
every emulator that was constructed: a run is host safe in each of its states exactly if it is
careful in each of them, and then nothing ends the process but a call of `exit`.
-/

namespace Vemu

open Fallible Loop

namespace VEmu

variable {host : Host} {s s' : VEmu}

/-! ## The next instruction -/

/-- The four bytes at the program counter are inside RAM. -/
def FetchMet (s : VEmu) : Prop :=
  ∀ k < 4, (s.pc + BitVec.ofNat 64 k).toNat < s.bus.mmu.ramSize.toNat

instance (s : VEmu) : Decidable s.FetchMet := Nat.decidableBallLT 4 _

/-- The word that they make. -/
def nextWord (s : VEmu) : U32 :=
  (MMU.assemble ((List.range 4).map fun k =>
    s.bus.mmu.ram.data (s.pc + BitVec.ofNat 64 k).toNat)).setWidth 32

/-- The next instruction is a system call that the emulator does not support. -/
def AsksUnsupported (s : VEmu) : Prop :=
  s.FetchMet ∧ ∃ ins, decodeOf s.nextWord = .ok ins ∧ ins.name = .ECALL
    ∧ s.loadReg regA7 ∉ supportedSyscalls

/-- What the next instruction needs is met. -/
structure NextMet (host : Host) (s : VEmu) : Prop where
  fetched : s.FetchMet
  handled : ¬ Unhandled s.nextWord
  met : ∀ ins, decodeOf s.nextWord = .ok ins →
    (demand ins.name).Met host { s with currInstr := ins }

/-- The next instruction, if there is one, has an outcome for the guest. -/
def HostSafe (host : Host) (s : VEmu) : Prop :=
  s.hasExited = true ∨ s.AsksUnsupported ∨ ∃ r, s.execute host = .ok r

/-- The condition for it. -/
def Careful (host : Host) (s : VEmu) : Prop :=
  s.hasExited = true ∨ s.AsksUnsupported ∨ s.NextMet host

/-! ## Fetching -/

lemma loadInsn_ok (hm : s.bus.mmu.Backed) (hf : s.FetchMet) :
    s.bus.mmu.loadInsn s.pc = .ok (s.nextWord, .NormalExecutionReturn) := by
  have hget : ∀ k < 4, s.bus.mmu.ram.get (s.pc + BitVec.ofNat 64 k)
      = .ok (s.bus.mmu.ram.data (s.pc + BitVec.ofNat 64 k).toNat) := by
    intro k hk
    exact ByteVec.get_of_lt (hm.ram.symm ▸ hf k hk)
  have h0 := hget 0 (by decide)
  have h1 := hget 1 (by decide)
  have h2 := hget 2 (by decide)
  have h3 := hget 3 (by decide)
  simp only [MMU.loadInsn]
  rw [show s.pc + 0 = s.pc + BitVec.ofNat 64 0 from rfl, h0, ok_bind,
    show s.pc + 1 = s.pc + BitVec.ofNat 64 1 from rfl, h1, ok_bind,
    show s.pc + 2 = s.pc + BitVec.ofNat 64 2 from rfl, h2, ok_bind,
    show s.pc + 3 = s.pc + BitVec.ofNat 64 3 from rfl, h3, ok_bind]
  rfl

lemma fetchMet_of_loadInsn (hm : s.bus.mmu.Backed) {r : U32 × ReturnException}
    (h : s.bus.mmu.loadInsn s.pc = .ok r) : s.FetchMet := by
  have hlt : ∀ {i : U64} {b : U8}, s.bus.mmu.ram.get i = .ok b →
      i.toNat < s.bus.mmu.ramSize.toNat := by
    intro i b hb
    unfold ByteVec.get at hb
    split_ifs at hb with hi
    exact hm.ram ▸ hi
  rw [MMU.loadInsn, bind_eq_ok_iff] at h
  obtain ⟨b0, h0, h⟩ := h
  rw [bind_eq_ok_iff] at h
  obtain ⟨b1, h1, h⟩ := h
  rw [bind_eq_ok_iff] at h
  obtain ⟨b2, h2, h⟩ := h
  rw [bind_eq_ok_iff] at h
  obtain ⟨b3, h3, -⟩ := h
  intro k hk
  interval_cases k
  · exact hlt h0
  · exact hlt h1
  · exact hlt h2
  · exact hlt h3

lemma fetch_eq (hb : host.build = .fuzz) :
    s.fetch host = (s.bus.mmu.loadInsn s.pc >>= fun r => .ok (r, s)) := by
  rw [fetch, if_neg (by rw [hb]; decide)]
  rfl

/-- What a demand looks at does not change by decoding. -/
lemma Demand.met_decoded (d : Demand) (w : U32) (ins : Instruction) (dec : InstructionDecoder) :
    d.Met host { s with hexInstr := w, currInstr := ins, decoder := dec }
      ↔ d.Met host { s with currInstr := ins } := by
  cases d <;> exact Iff.rfl

/-- After the fetch, the handler of the decoded word is called. -/
lemma execute_of_fetchMet (hs : s.Intact host) (hb : host.build = .fuzz) (hf : s.FetchMet) :
    s.execute host = (decodeOf s.nextWord >>= fun ins =>
      dispatch host ins.name
        { s with
          hexInstr := s.nextWord, currInstr := ins
          decoder := (s.decoder.decode s.nextWord).2 }) := by
  rw [execute, executeWith, fetch_eq hb, loadInsn_ok hs.memory hf, ok_bind, ok_bind]
  dsimp only
  rw [afterwards_normal, ok_bind, decodeInto]
  have hdec := (InstructionDecoder.decode_eq hs.decoder s.nextWord).1
  dsimp only
  rw [hdec]
  cases decodeOf s.nextWord <;> rfl

/-- **The next instruction has an outcome exactly if what it needs is met.** -/
theorem execute_ok_iff (hs : s.Intact host) (hb : host.build = .fuzz) :
    (∃ r, s.execute host = .ok r) ↔ s.NextMet host := by
  by_cases hf : s.FetchMet
  · rw [execute_of_fetchMet hs hb hf]
    have hhandled := dispatched_decodeOf_iff s.nextWord
    cases hdec : decodeOf s.nextWord with
    | error e =>
        rw [hdec] at hhandled
        refine iff_of_false (by simp) fun h => ?_
        obtain ⟨ins, hins, -⟩ := hhandled.mpr h.handled
        cases hins
    | ok ins =>
        rw [hdec] at hhandled
        rw [ok_bind, dispatch, dispatchWith]
        have hmem : ins.name ∈ initFuncMap ↔ ¬ Unhandled s.nextWord := by
          rw [← hhandled]
          constructor
          · exact fun h => ⟨ins, rfl, h⟩
          · rintro ⟨ins', hins', h⟩
            exact Except.ok.inj hins' ▸ h
        by_cases hun : Unhandled s.nextWord
        · rw [if_neg (by rw [hs.instFuncs]; exact fun h => hmem.mp h hun)]
          exact iff_of_false (by simp) fun h => h.handled hun
        · rw [if_pos (by rw [hs.instFuncs]; exact hmem.mpr hun)]
          have hram : OnlyRam { s with
              hexInstr := s.nextWord, currInstr := ins
              decoder := (s.decoder.decode s.nextWord).2 } :=
            ⟨(hs.onlyRam hb).devices, hs.memory⟩
          have hcomplete := handler_completes_iff hb hram ins.name
          rw [Demand.met_decoded] at hcomplete
          refine hcomplete.trans ⟨fun hmet => ⟨hf, hun, ?_⟩, fun h => h.met ins hdec⟩
          intro ins' hins'
          rw [hdec] at hins'
          exact Except.ok.inj hins' ▸ hmet
  · refine iff_of_false ?_ fun h => hf h.fetched
    rintro ⟨r, hr⟩
    rw [execute, executeWith, bind_eq_ok_iff] at hr
    obtain ⟨fetched, hfetch, -⟩ := hr
    rw [fetch_eq hb, bind_eq_ok_iff] at hfetch
    obtain ⟨word, hword, -⟩ := hfetch
    exact hf (fetchMet_of_loadInsn hs.memory hword)

lemma hostSafe_iff (hs : s.Intact host) (hb : host.build = .fuzz) :
    HostSafe host s ↔ Careful host s :=
  or_congr_right (or_congr_right (execute_ok_iff hs hb))

/-! ## How a host-safe round can end the process -/

/-- A system call that is not supported ends the process by a call of `exit`. -/
lemma execute_unsupported (hs : s.Intact host) (hb : host.build = .fuzz)
    (h : s.AsksUnsupported) : s.execute host = .error .exitFailure := by
  obtain ⟨hf, ins, hins, hname, hnr⟩ := h
  rw [execute_of_fetchMet hs hb hf, hins, ok_bind, dispatch, dispatchWith, hname]
  have hmem : IName.ECALL ∈ s.instFuncs := by
    rw [hs.instFuncs, mem_initFuncMap]
    decide
  rw [if_pos hmem, handler, hb]
  dsimp only
  simp only [supportedSyscalls, List.mem_cons, List.not_mem_nil, or_false, not_or] at hnr
  obtain ⟨h1, h2, h3, h4, h5, h6, h7, h8⟩ := hnr
  unfold ecallFuzz
  exact (if_neg h1).trans ((if_neg h2).trans ((if_neg h3).trans ((if_neg h4).trans
    ((if_neg h5).trans ((if_neg h6).trans ((if_neg h7).trans (if_neg h8)))))))

/-- An outcome ends the process by a call of `exit`, or not at all. -/
lemma afterwards_fault (hb : host.build = .fuzz) {e : ReturnException} {fault : Fault}
    (h : s.afterwards host.build e = .error fault) : fault = .exitFailure := by
  unfold afterwards at h
  by_cases he : e = .NormalExecutionReturn
  · rw [if_pos he] at h
    cases h
  · rw [if_neg he, trap, if_pos hb, ok_bind] at h
    split_ifs at h
    · exact (Except.error.inj h).symm
    · cases h

lemma HostSafe.iterate_fault (hs : s.Intact host) (hb : host.build = .fuzz)
    (hsafe : HostSafe host s) {fault : Fault} (h : s.iterate host = .error fault) :
    fault = .exitFailure := by
  rw [iterate, iterateWith] at h
  by_cases hex : s.hasExited = true
  · rw [if_pos hex] at h
    cases h
  · have htest : ¬ (host.build = .test ∧ s.testFlagDone = true) := by
      rw [hb]
      simp
    rw [if_neg hex, poll, if_pos hb, pure_eq_ok, ok_bind, if_neg htest, ← execute] at h
    rcases hsafe with hexited | hunsupported | ⟨⟨e, s₁⟩, hr⟩
    · exact absurd hexited hex
    · rw [execute_unsupported hs hb hunsupported, error_bind] at h
      exact (Except.error.inj h).symm
    · rw [hr, ok_bind, bind_eq_error_iff] at h
      rcases h with h | ⟨s₂, -, h⟩
      · exact afterwards_fault hb h
      · cases h

/-! ## Along a run -/

/-- The property holds in every state from which a run of so many rounds goes on. -/
def Along (host : Host) (P : VEmu → Prop) (rounds : ℕ) (s : VEmu) : Prop :=
  ∀ k < rounds, ∀ s', run host k s = .ok (.next s') → P s'

lemma Along.head {P : VEmu → Prop} {rounds : ℕ} (h : Along host P (rounds + 1) s) : P s :=
  h 0 (by omega) s rfl

lemma Along.tail {P : VEmu → Prop} {rounds : ℕ} (h : Along host P (rounds + 1) s)
    (hs : s.iterate host = .ok (.next s')) : Along host P rounds s' := by
  intro k hk s₁ h₁
  refine h (k + 1) (by omega) s₁ ?_
  rw [run, hs]
  exact h₁

lemma Intact.run : ∀ {rounds : ℕ} {s s' : VEmu}, s.Intact host →
    VEmu.run host rounds s = .ok (.next s') → s'.Intact host
  | 0, _, _, hs, h => by
      obtain rfl := Turn.next.inj (Except.ok.inj h)
      exact hs
  | rounds + 1, s, s', hs, h => by
      rw [VEmu.run, bind_eq_ok_iff] at h
      obtain ⟨turn, h₁, h⟩ := h
      cases turn with
      | returned code => cases h
      | next s₁ => exact (hs.iterate h₁).run h

/-- A host-safe run ends the process only by a call of `exit`. -/
lemma run_fault (hb : host.build = .fuzz) :
    ∀ {rounds : ℕ} {s : VEmu} {fault : Fault}, s.Intact host →
      Along host (HostSafe host) rounds s → run host rounds s = .error fault →
      fault = .exitFailure
  | 0, _, _, _, _, h => by cases h
  | rounds + 1, s, fault, hs, hsafe, h => by
      rw [run, bind_eq_error_iff] at h
      rcases h with h | ⟨turn, h₁, h⟩
      · exact hsafe.head.iterate_fault hs hb h
      · cases turn with
        | returned code => cases h
        | next s₁ => exact run_fault hb (hs.iterate h₁) (hsafe.tail h₁) h

/-- **The runs of a guest are host safe exactly if they are careful**, in each of their states;
and then the process ends by a call of `exit`, or not at all. -/
theorem hostSafe_run_iff (hb : host.build = .fuzz) (hs : Built host s) (rounds : ℕ) :
    (Along host (HostSafe host) rounds s ↔ Along host (Careful host) rounds s)
      ∧ (Along host (Careful host) rounds s →
          ∀ fault, run host rounds s = .error fault → fault = .exitFailure) := by
  have hiff : Along host (HostSafe host) rounds s ↔ Along host (Careful host) rounds s :=
    forall₂_congr fun k _ => forall₂_congr fun s' h => hostSafe_iff (hs.intact.run h) hb
  exact ⟨hiff, fun hcareful _ h => run_fault hb hs.intact (hiff.mpr hcareful) h⟩

/-! ## Two programs of one instruction -/

/-- The program is loaded into 2 MiB of RAM, and its word is fetched. -/
def LoadsOneWord (w : U32) : Prop :=
  ((ofInfo (.bare .fuzz) .zero (.after .init []) 0 (oneWord w) [] 0x200000) >>= fun s =>
    .ok (s.hasExited, s.nextWord, decide s.FetchMet)) = .ok (false, w, true)

instance (w : U32) : Decidable (LoadsOneWord w) := inferInstanceAs (Decidable (_ = _))

/-- `jal x0, 0` can go on for ever. -/
theorem hostSafe_run_iff_jal :
    ∃ s, ofInfo (.bare .fuzz) .zero (.after .init []) 0 (oneWord 0x0000006F) [] 0x200000 = .ok s
      ∧ Along (.bare .fuzz) (HostSafe (.bare .fuzz)) 1 s := by
  have hloads : LoadsOneWord 0x0000006F := by decide +kernel
  obtain ⟨s, hs, hview⟩ := bind_eq_ok_iff.mp hloads
  simp only [Except.ok.injEq, Prod.mk.injEq, decide_eq_true_eq] at hview
  obtain ⟨-, hword, hfetch⟩ := hview
  refine ⟨s, hs, ?_⟩
  have hbuilt : Built (.bare .fuzz) s := .ofInfo hs
  refine (hostSafe_run_iff rfl hbuilt 1).1.mpr ?_
  intro k hk s' hrun
  obtain rfl : k = 0 := by omega
  obtain rfl := Turn.next.inj (Except.ok.inj hrun)
  refine Or.inr (Or.inr ⟨hfetch, ?_, ?_⟩)
  · rw [hword]
    unfold Unhandled
    decide
  · intro ins hins
    rw [hword] at hins
    have hjal : decodeOf 0x0000006F = .ok ⟨.J, .JAL, fieldsOf 0x0000006F, "JAL"⟩ := by
      decide +kernel
    obtain rfl := Except.ok.inj (hjal.symm.trans hins)
    trivial

/-- `sb x0, 0(x0)` fails an assertion: byte zero cannot be written. -/
theorem not_hostSafe_sb :
    ∃ s, ofInfo (.bare .fuzz) .zero (.after .init []) 0 (oneWord 0x00000023) [] 0x200000 = .ok s
      ∧ s.execute (.bare .fuzz) = .error .assertFailed ∧ ¬ HostSafe (.bare .fuzz) s := by
  have hloads : LoadsOneWord 0x00000023 := by decide +kernel
  obtain ⟨s, hs, hview⟩ := bind_eq_ok_iff.mp hloads
  simp only [Except.ok.injEq, Prod.mk.injEq, decide_eq_true_eq] at hview
  obtain ⟨hex, hword, -⟩ := hview
  have hfail : (ofInfo (.bare .fuzz) .zero (.after .init []) 0 (oneWord 0x00000023) [] 0x200000
      >>= fun s => s.execute (.bare .fuzz) >>= fun _ => .ok ()) = .error .assertFailed := by
    decide +kernel
  rw [hs, ok_bind, bind_eq_error_iff] at hfail
  have hexec : s.execute (.bare .fuzz) = .error .assertFailed := by
    rcases hfail with h | ⟨_, -, h⟩
    · exact h
    · cases h
  refine ⟨s, hs, hexec, ?_⟩
  rintro (h | ⟨-, ins, hins, hname, -⟩ | ⟨r, hr⟩)
  · rw [hex] at h
    cases h
  · rw [hword] at hins
    have hsb : decodeOf 0x00000023 = .ok ⟨.S, .SB, fieldsOf 0x00000023, "SB"⟩ := by
      decide +kernel
    obtain rfl := Except.ok.inj (hsb.symm.trans hins)
    cases hname
  · rw [hexec] at hr
    cases hr

end VEmu

end Vemu
