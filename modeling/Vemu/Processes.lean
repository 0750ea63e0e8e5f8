import Vemu.Forgetting
import Vemu.Fuzz.Divisors
import Vemu.Fuzz.Locks
import Vemu.Handlers.Untouched

/-!
# The programs of a process

The test build runs its tests one after the other, and the fuzzing build its iterations.  Their
emulators share the decoder of the process, and take over whatever is left in the storage they get.

**`suite_forgets`**: what the tests report does not depend on what the decoder has seen.
**`one_report`**: a test that ends is reported on exactly once, but for a file whose entry point is the
one that stands for a file that cannot be read.
**`dispatch_forgets`**: an iteration of the fuzzing loop depends on the ones before it by the corpus,
the target and the random numbers only.
**`main_goes_on`**: the fuzzing program, which goes a hundred iterations, does not come to its end on a
directory of fewer files than that.
-/

namespace Vemu

open Fallible VEmu

/-! ## Tests -/

/-- The register of the number of a test. -/
def regGp : Reg := 3

namespace Tester

structure TestCase where
  binFileName : List U8
  skip : Bool

/-- What is printed of a test besides its name. -/
inductive Report
  | skipped
  /-- The message of `read_elf`. -/
  | unreadable
  | passed
  /-- The number of the check that failed. -/
  | failed (number : U64)
  deriving DecidableEq, Repr

/-- What `ECALL` prints in the test build. -/
def report (s : VEmu) : Report :=
  if s.loadReg regA0 = 0 then .passed else .failed ((s.loadReg regGp).sshiftRight 1)

/-- What the tests depend on besides the state of the process. -/
structure Surroundings where
  host : Host
  load : List U8 → Option (List ProgramHeader × U64)
  rounds : ℕ → ℕ
  junk : ℕ → Junk

/-- `em.run()`: the reports of its rounds, and the emulator that it returns from. -/
def trial (host : Host) : ℕ → VEmu → Except Stop (List Report × VEmu)
  | 0, _ => .error .cutOff
  | rounds + 1, s => do
      match ← Stop.lift (s.iterate host) with
      | .returned _ => return ([], s)
      | .next s' =>
          let (reports, last) ← trial host rounds s'
          return (if s'.testFlagDone then report s' :: reports else reports, last)

def testMemSize : U64 := 2 * 1024 * 1024

/-- What `read_elf` prints of a file.  `Tester::run` does not ask for it, and looks at the entry
point only. -/
def loadReports (env : Surroundings) (tcase : TestCase) : List Report :=
  if env.load tcase.binFileName = none then [.unreadable] else []

/-- A test, in a process with a decoder; its reports, and the decoder after it. -/
def runCase (env : Surroundings) (k : ℕ) (decoder : InstructionDecoder) (tcase : TestCase) :
    Except Stop (List Report × InstructionDecoder) := do
  if tcase.skip then return ([.skipped], decoder)
  else
    let info ← Stop.lift (readElf env.load tcase.binFileName false)
    if info.entryPoint = ~~~0 then return (loadReports env tcase, decoder)
    else
      let em ← Stop.lift (VEmu.ofInfo env.host (env.junk k) decoder 0 info [] testMemSize)
      let (reports, last) ← trial env.host (env.rounds k) em
      return (loadReports env tcase ++ reports, last.decoder)

/-- **`Tester::run`**, from the `k`-th test on. -/
def run (env : Surroundings) : ℕ → InstructionDecoder → List TestCase → Except Stop (List (List Report))
  | _, _, [] => .ok []
  | k, decoder, tcase :: tcases => do
      let (reports, decoder) ← runCase env k decoder tcase
      let rest ← run env (k + 1) decoder tcases
      return reports :: rest

/-- The same tests in the same storage, each with a decoder that has not decoded anything. -/
def runUndecoded (env : Surroundings) : ℕ → List TestCase → Except Stop (List (List Report))
  | _, [] => .ok []
  | k, tcase :: tcases => do
      let (reports, _) ← runCase env k .init tcase
      let rest ← runUndecoded env (k + 1) tcases
      return reports :: rest

/-! ## The decoder of the process -/

section Decoders

variable {env : Surroundings} {host : Host} {s last : VEmu} {p : Past} {i : Instruction}
  {reports : List Report}

lemma intact_trial {n : ℕ} (hs : s.Intact host) (h : trial host n s = .ok (reports, last)) :
    last.Intact host := by
  induction n generalizing s reports with
  | zero => cases h
  | succ n ih =>
      rw [Tester.trial, bind_eq_ok_iff] at h
      obtain ⟨turn, hturn, h⟩ := h
      rw [Stop.lift_eq_ok_iff] at hturn
      cases turn with
      | returned code =>
          obtain ⟨-, rfl⟩ := Prod.mk.inj (Except.ok.inj h)
          exact hs
      | next s' =>
          obtain ⟨⟨rest, last'⟩, hrest, h⟩ := bind_eq_ok_iff.mp h
          obtain ⟨-, rfl⟩ := Prod.mk.inj (Except.ok.inj h)
          exact ih (hs.iterate hturn) hrest

/-- **A test forgets**: it prints the same, whatever the process has decoded before. -/
lemma trial_forgets (n : ℕ) (hs : s.Intact host) (hp : p.decoder.Consistent) :
    ∃ q j, trial host n (s.revised p i) = (trial host n s).map (Prod.map id (revised q j)) := by
  induction n generalizing s p i with
  | zero => exact ⟨p, i, rfl⟩
  | succ n ih =>
      obtain ⟨p', h⟩ := iterate_forgets host (i := i) hs.decoder hp
      rw [trial, trial, h]
      cases hturn : s.iterate host with
      | error f => exact ⟨p, i, rfl⟩
      | ok turn =>
          rw [hturn] at h
          cases turn with
          | returned code => exact ⟨p, i, rfl⟩
          | next s₁ =>
              have hp' : p'.decoder.Consistent := ((hs.revised hp).iterate h).decoder
              obtain ⟨q, j, hrest⟩ := ih (i := s₁.currInstr) (hs.iterate hturn) hp'
              refine ⟨q, j, ?_⟩
              change (trial host n (s₁.revised p' s₁.currInstr) >>= _)
                = (trial host n s₁ >>= _).map _
              rw [hrest]
              cases trial host n s₁ <;> rfl

lemma runCase_consistent {k : ℕ} {decoder decoder' : InstructionDecoder} {tcase : TestCase}
    (hd : decoder.Consistent) (h : runCase env k decoder tcase = .ok (reports, decoder')) :
    decoder'.Consistent := by
  unfold runCase at h
  split_ifs at h
  · obtain ⟨-, rfl⟩ := Prod.mk.inj (Except.ok.inj h)
    exact hd
  · obtain ⟨info, -, h⟩ := bind_eq_ok_iff.mp h
    split_ifs at h
    · obtain ⟨-, rfl⟩ := Prod.mk.inj (Except.ok.inj h)
      exact hd
    · obtain ⟨em, hem, h⟩ := bind_eq_ok_iff.mp h
      obtain ⟨⟨rest, last⟩, htrial, h⟩ := bind_eq_ok_iff.mp h
      obtain ⟨-, rfl⟩ := Prod.mk.inj (Except.ok.inj h)
      exact (intact_trial (intact_ofInfo hd (Stop.lift_eq_ok_iff.mp hem)) htrial).decoder

/-- What an emulator prints, however it came about, and with whatever past. -/
lemma reports_forget {x : Except Fault VEmu} (printed : List Report) (n : ℕ) (hx : ∀ {s}, x = .ok s → s.Intact host)
    (hp : p.decoder.Consistent) :
    (Stop.lift (x.map (revised p i)) >>= fun em => trial host n em >>= fun r =>
        .ok (printed ++ r.1, r.2.decoder)).map Prod.fst
      = (Stop.lift x >>= fun em => trial host n em >>= fun r =>
          .ok (printed ++ r.1, r.2.decoder)).map Prod.fst := by
  cases x with
  | error => rfl
  | ok s =>
      obtain ⟨q, j, h⟩ := trial_forgets (i := i) n (hx rfl) hp
      simp only [Except.map, Stop.lift, ok_bind, h]
      cases trial host n s <;> rfl

lemma runCase_forgets (env : Surroundings) (k : ℕ) {decoder decoder' : InstructionDecoder}
    (tcase : TestCase) (hd : decoder.Consistent) (hd' : decoder'.Consistent) :
    (runCase env k decoder' tcase).map Prod.fst = (runCase env k decoder tcase).map Prod.fst := by
  unfold runCase
  split_ifs
  · rfl
  · refine map_bind_congr fun info => ?_
    split_ifs
    · rfl
    · rw [ofInfo_forgets (.refl (env.junk k)) env.host decoder decoder']
      exact reports_forget _ (env.rounds k) (intact_ofInfo hd) hd'

/-- **The tests forget.**  What the tests of a process print, and the first of them that ends it, do
not depend on the words that the shared decoder has seen, before them or in them. -/
theorem suite_forgets (env : Surroundings) (k : ℕ) (history : List U32) (tcases : List TestCase) :
    run env k (.after .init history) tcases = runUndecoded env k tcases := by
  have hinit := InstructionDecoder.consistent_init
  generalize hdecoder : InstructionDecoder.init.after history = decoder
  have hd : decoder.Consistent := hdecoder ▸ hinit.after history
  clear hdecoder
  induction tcases generalizing k decoder with
  | nil => rfl
  | cons tcase tcases ih =>
      rw [run, runUndecoded]
      have hcase := runCase_forgets env k tcase hinit hd
      cases h : runCase env k decoder tcase with
      | error f =>
          rw [h] at hcase
          cases h' : runCase env k .init tcase with
          | error f' =>
              rw [h'] at hcase
              obtain rfl : f = f' := Except.error.inj hcase
              rfl
          | ok r => simp [h', Except.map] at hcase
      | ok r =>
          rw [h] at hcase
          cases h' : runCase env k .init tcase with
          | error f' => simp [h', Except.map] at hcase
          | ok r' =>
              rw [h'] at hcase
              have hfst : r.1 = r'.1 := Except.ok.inj hcase
              simp only [ok_bind, hfst]
              rw [ih (k + 1) r.2 (runCase_consistent hd h)]

end Decoders

/-! ## One report -/

section Reports

variable {host : Host} {s s' last : VEmu} {reports : List Report}

/-- A round of a test that runs returns exactly if the test is over, and goes on without exiting. -/
lemma iterate_running (hb : host.build = .test) (hs : s.hasExited = false) :
    (∀ {code}, s.iterate host = .ok (.returned code) → s.testFlagDone = true)
      ∧ ∀ {s'}, s.iterate host = .ok (.next s') →
          s.testFlagDone = false ∧ s'.hasExited = false := by
  have hview : Unseen fun s : VEmu => s.hasExited := .of_bus (fun _ _ => rfl) fun _ _ => rfl
  rw [iterate, iterateWith, if_neg (by simp [hs])]
  cases hpoll : s.poll host with
  | error => exact ⟨nofun, nofun⟩
  | ok s₁ =>
      obtain ⟨csrs, devices, -, heq⟩ := poll_frame hpoll
      have hdone : s₁.testFlagDone = s.testFlagDone := by rw [heq]
      have hexited : s₁.hasExited = false := by rw [heq, ← hs]
      rw [ok_bind, hdone]
      split_ifs with hover
      · exact ⟨fun _ => hover.2, nofun⟩
      · have hnot : s.testFlagDone = false := by simpa [hb] using hover
        refine ⟨fun h => ?_, fun {s'} h => ⟨hnot, ?_⟩⟩
        · obtain ⟨r, -, h⟩ := bind_eq_ok_iff.mp h
          obtain ⟨s₃, -, h⟩ := bind_eq_ok_iff.mp h
          cases h
        · obtain ⟨⟨exp, s₂⟩, hexecute, h⟩ := bind_eq_ok_iff.mp h
          obtain ⟨s₃, hafter, h⟩ := bind_eq_ok_iff.mp h
          obtain rfl := Turn.next.inj (Except.ok.inj h)
          obtain ⟨w, exp₀, csrs', mode, pc, ins, -, -, -, -, hhandler⟩ := executeWith_cases hexecute
          obtain ⟨csrs'', mode', pc', heq'⟩ := afterwards_frame hafter
          have hs₂ := hview.handler (by simp [hb]) (fun _ _ => rfl) (fun _ _ => rfl)
            (fun _ _ => rfl) (fun _ => rfl) ins.name _ exp s₂ hhandler
          rw [heq']
          exact hs₂.trans hexited

/-- What is printed from any round on. -/
lemma trial_reports (hb : host.build = .test) {n : ℕ} (hs : s.hasExited = false)
    (h : trial host n s = .ok (reports, last)) :
    (s.testFlagDone = true → reports = [] ∧ last = s)
      ∧ (s.testFlagDone = false → reports = [report last]) := by
  induction n generalizing s reports with
  | zero => cases h
  | succ n ih =>
      obtain ⟨hreturned, hnext⟩ := iterate_running hb hs
      obtain ⟨turn, hturn, h⟩ := bind_eq_ok_iff.mp h
      rw [Stop.lift_eq_ok_iff] at hturn
      cases turn with
      | returned code =>
          obtain ⟨rfl, rfl⟩ := Prod.mk.inj (Except.ok.inj h)
          refine ⟨fun _ => ⟨rfl, rfl⟩, fun hnot => ?_⟩
          exact absurd (hreturned hturn) (by simp [hnot])
      | next s' =>
          obtain ⟨hnot, hs'⟩ := hnext hturn
          obtain ⟨⟨rest, last'⟩, hrest, h⟩ := bind_eq_ok_iff.mp h
          obtain ⟨hreports, rfl⟩ := Prod.mk.inj (Except.ok.inj h)
          obtain ⟨hover, hgoes⟩ := ih hs' hrest
          refine ⟨fun hdone => absurd hdone (by simp [hnot]), fun _ => ?_⟩
          cases hdone : s'.testFlagDone with
          | true =>
              obtain ⟨rfl, rfl⟩ := hover hdone
              simpa [hdone] using hreports.symm
          | false => simpa [hdone, hgoes hdone] using hreports.symm

/-- An emulator that was just made has not exited, and its test is not over. -/
def Fresh (s : VEmu) : Prop := s.hasExited = false ∧ s.testFlagDone = false

lemma fresh_blank {junk : Junk} {decoder : InstructionDecoder} {hostCalls : ℕ} {fName : List U8}
    {startPc memSize : U64} (h : blank host junk decoder hostCalls fName startPc memSize = .ok s) :
    Fresh s := by
  rw [blank, bind_eq_ok_iff] at h
  obtain ⟨bus, -, h⟩ := h
  obtain rfl := Except.ok.inj h
  split_ifs
  · exact ⟨rfl, rfl⟩
  · exact ⟨rfl, rfl⟩

lemma fresh_ofInfo {junk : Junk} {decoder : InstructionDecoder} {hostCalls : ℕ} {info : FileInfo}
    {args : List (List U8)} {memSize : U64}
    (h : ofInfo host junk decoder hostCalls info args memSize = .ok s) : Fresh s := by
  obtain ⟨s₀, bus, iregs, fName, hblank, rfl⟩ := ofInfo_frame h
  have hfresh := fresh_blank hblank
  exact hfresh

/-- What is reported on a test. -/
structure ReportedOn (env : Surroundings) (tcase : TestCase) (reports : List Report) : Prop where
  skipped : tcase.skip = true → reports = [.skipped]
  unreadable : tcase.skip = false → env.load tcase.binFileName = none → reports = [.unreadable]
  /-- A file with the entry point of one that cannot be read is passed over. -/
  passedOver : ∀ headers, tcase.skip = false → env.load tcase.binFileName = some (headers, ~~~0) →
    reports = []
  ran : ∀ headers entry, tcase.skip = false → env.load tcase.binFileName = some (headers, entry) →
    entry ≠ ~~~0 → reports = [.passed] ∨ ∃ number, reports = [.failed number]

lemma report_cases (s : VEmu) : report s = .passed ∨ ∃ number, report s = .failed number := by
  unfold report
  split_ifs
  · exact Or.inl rfl
  · exact Or.inr ⟨_, rfl⟩

/-- A test that comes to an end is reported on. -/
lemma runCase_report {env : Surroundings} {k : ℕ} {decoder decoder' : InstructionDecoder}
    {tcase : TestCase} (hb : env.host.build = .test)
    (h : runCase env k decoder tcase = .ok (reports, decoder')) : ReportedOn env tcase reports := by
  unfold runCase at h
  cases hskip : tcase.skip with
  | true =>
      rw [if_pos hskip] at h
      obtain ⟨rfl, -⟩ := Prod.mk.inj (Except.ok.inj h)
      exact ⟨fun _ => rfl, by simp [hskip], by simp [hskip], by simp [hskip]⟩
  | false =>
      rw [if_neg (by simp [hskip]), readElf] at h
      cases hload : env.load tcase.binFileName with
      | none =>
          have hprinted : loadReports env tcase = [.unreadable] := if_pos hload
          rw [hload] at h
          obtain ⟨rfl, -⟩ := Prod.mk.inj (Except.ok.inj h)
          exact ⟨by simp [hskip], fun _ _ => hprinted, by simp [hload], by simp [hload]⟩
      | some file =>
          obtain ⟨headers, entry⟩ := file
          rw [hload] at h
          have hnone : loadReports env tcase = [] := by rw [loadReports, hload, if_neg nofun]
          obtain ⟨info, hinfo, h⟩ := bind_eq_ok_iff.mp h
          obtain rfl := Except.ok.inj hinfo
          dsimp only at h
          split_ifs at h with hentry
          · obtain ⟨rfl, -⟩ := Prod.mk.inj (Except.ok.inj h)
            refine ⟨by simp [hskip], by simp [hload], fun _ _ _ => hnone, ?_⟩
            intro headers' entry' _ hload' hentry'
            obtain ⟨-, rfl⟩ := Prod.mk.inj (Option.some.inj (hload.symm.trans hload'))
            exact absurd hentry hentry'
          · obtain ⟨em, hem, h⟩ := bind_eq_ok_iff.mp h
            obtain ⟨⟨rest, last⟩, htrial, h⟩ := bind_eq_ok_iff.mp h
            obtain ⟨rfl, -⟩ := Prod.mk.inj (Except.ok.inj h)
            have hfresh := fresh_ofInfo (Stop.lift_eq_ok_iff.mp hem)
            rw [hnone, (trial_reports hb hfresh.1 htrial).2 hfresh.2]
            refine ⟨by simp [hskip], by simp [hload], ?_, fun _ _ _ _ _ => ?_⟩
            · intro headers' _ hload'
              obtain ⟨-, rfl⟩ := Prod.mk.inj (Option.some.inj (hload.symm.trans hload'))
              exact absurd rfl hentry
            · rcases report_cases last with hreport | ⟨number, hreport⟩
              · exact Or.inl (by rw [hreport, List.nil_append])
              · exact Or.inr ⟨number, by rw [hreport, List.nil_append]⟩

/-- **One report for each test.**  Where all tests end, every one has been reported on once: as
skipped, as unreadable, or as passed or failed.  Only a file whose entry point is the one of an
unreadable file is passed over. -/
theorem one_report (env : Surroundings) (k : ℕ) (decoder : InstructionDecoder)
    (tcases : List TestCase) (all : List (List Report)) (hb : env.host.build = .test)
    (h : run env k decoder tcases = .ok all) : List.Forall₂ (ReportedOn env) tcases all := by
  induction tcases generalizing k decoder all with
  | nil =>
      obtain rfl := Except.ok.inj h
      exact .nil
  | cons tcase tcases ih =>
      obtain ⟨⟨reports, decoder'⟩, hcase, h⟩ := bind_eq_ok_iff.mp h
      obtain ⟨rest, hrest, h⟩ := bind_eq_ok_iff.mp h
      obtain rfl := Except.ok.inj h
      exact .cons (runCase_report hb hcase) (ih (k + 1) decoder' rest hrest)

/-- An executable of one word, `ecall`, which passes. -/
def passing : Surroundings where
  host := .bare .test
  load := fun _ => some ([⟨ptLoad, 5, 0x1000, 4, 4, [0x73, 0, 0, 0], rfl⟩], 0x1000)
  rounds := fun _ => 2
  junk := fun _ => .zero

/-- The same, a file that cannot be read, and one with the entry point of such a file. -/
def threeFiles : Surroundings :=
  { passing with
    load := fun name =>
      if name = [0x61] then passing.load name
      else if name = [0x62] then some ([], ~~~0)
      else none }

theorem one_report_passing :
    run threeFiles 0 .init [⟨[0x61], false⟩, ⟨[0x61], true⟩, ⟨[0x62], false⟩, ⟨[0x63], false⟩]
        = .ok [[.passed], [.skipped], [], [.unreadable]]
      ∧ List.Forall₂ (ReportedOn threeFiles)
        [⟨[0x61], false⟩, ⟨[0x61], true⟩, ⟨[0x62], false⟩, ⟨[0x63], false⟩]
        [[.passed], [.skipped], [], [.unreadable]] := by
  have h : run threeFiles 0 .init
      [⟨[0x61], false⟩, ⟨[0x61], true⟩, ⟨[0x62], false⟩, ⟨[0x63], false⟩]
        = .ok [[.passed], [.skipped], [], [.unreadable]] := by
    decide +kernel
  exact ⟨h, one_report threeFiles 0 .init _ _ rfl h⟩

end Reports

end Tester

/-! ## The fuzzing loop -/

namespace FuzzThread

variable {env env' : Surroundings}

/-- The same surroundings, but for what the decoder has seen and what is written before it is read. -/
structure Agree (env env' : Surroundings) : Prop where
  host : env.host = env'.host
  stream : env.stream = env'.stream
  tries : env.tries = env'.tries
  rounds : env.rounds = env'.rounds
  junk : ∀ k, SameStorage (env.junk k) (env'.junk k)
  hostCalls : env.hostCalls = env'.hostCalls

/-- What the emulator of the `k`-th iteration has of the past. -/
def past (env : Surroundings) (k : ℕ) : Past :=
  .ofJunk (env.junk k) (.after .init (env.history k))

def AtPop.revised (env : Surroundings) (k : ℕ) (p : AtPop) : AtPop :=
  { p with emulator := p.emulator.revised (past env k) (env.junk k).currInstr }

lemma prepare_forgets (h : Agree env env') (k : ℕ) (t : FuzzThread) :
    t.prepare env' k = (t.prepare env k).map (AtPop.revised env' k) := by
  unfold prepare
  rw [h.host, h.stream, h.tries, h.hostCalls]
  refine bind_eq_map fun r => ?_
  obtain ⟨input, drawn⟩ := r
  refine bind_eq_map fun f => bind_eq_map fun r => ?_
  obtain ⟨drawn', target, history⟩ := r
  dsimp only
  rw [ofInfo_forgets (h.junk k) env'.host (.after .init (env.history k))
    (.after .init (env'.history k))]
  cases ofInfo env'.host (env.junk k) (.after .init (env.history k)) (env'.hostCalls k) target
    (substituteInput t.fuzzOpts (VEmu.cString f.info.fileName)) defaultMemSize <;> rfl

lemma iteration_forgets (h : Agree env env') (k : ℕ) (t : FuzzThread) :
    iteration env' k t = iteration env k t := by
  unfold iteration
  rw [prepare_forgets h]
  cases hp : t.prepare env k with
  | error => rfl
  | ok p =>
      obtain ⟨args, hem⟩ := (prepared hp).emulator
      have hinit := InstructionDecoder.consistent_init
      obtain ⟨q, j, hrun⟩ := run_forgets env.host (env.rounds k) p.emulator (past env' k)
        (env'.junk k).currInstr (intact_ofInfo (hinit.after _) hem) (hinit.after _)
      simp only [Except.map, ok_bind]
      refine congrArg _ (funext fun info => ?_)
      change (Stop.lift ((p.emulator.revised (past env' k) (env'.junk k).currInstr).run env'.host
        (env'.rounds k)) >>= _) = _
      rw [← h.host, ← h.rounds, hrun]
      cases p.emulator.run env.host (env.rounds k) with
      | error => rfl
      | ok turn => cases turn <;> rfl

/-- **An iteration is on its own.**  In surroundings that agree, the fuzzing loop does the same for
any number of iterations, whatever the process has decoded before each of them. -/
theorem dispatch_forgets (env env' : Surroundings) (h : Agree env env') (runs : ℕ) (t : FuzzThread) :
    dispatch env' runs t = dispatch env runs t := by
  induction runs with
  | zero => rfl
  | succ runs ih =>
      rw [dispatch, dispatch, ih]
      exact congrArg _ (funext fun t => iteration_forgets h runs t)

/-- A process that has decoded a word before. -/
def drawingLater (stream : ℕ → U64) : Surroundings :=
  { drawing stream with history := fun _ => [0x13], junk := fun _ => { Junk.zero with hexInstr := 1 } }

lemma agree_drawingLater (stream : ℕ → U64) : Agree (drawing stream) (drawingLater stream) :=
  ⟨rfl, rfl, rfl, rfl, fun _ => ⟨rfl, rfl, rfl, rfl⟩, rfl⟩

theorem dispatch_forgets_oneFile :
    dispatch (drawingLater genRandStream) 1 oneFile = dispatch (drawing genRandStream) 1 oneFile :=
  dispatch_forgets (drawing genRandStream) (drawingLater genRandStream) (agree_drawingLater _) 1 oneFile

end FuzzThread

/-! ## The fuzzing program -/

/-- `Corpus(dir_path)`, from the entries of the directory. -/
def Corpus.ofEntries (load : List U8 → Option (List ProgramHeader × U64)) (entries : List (List U8)) :
    Except Fault Corpus := do
  let infos ← entries.mapM fun path => readElf load path true
  if h : infos.length < 2 ^ 64 then
    return ⟨infos.map (⟨·, false⟩), by rwa [List.length_map]⟩
  else .error .lengthError

/-- **`main`** of the fuzzing build: the corpus directory, the target and its options are arguments. -/
def main (env : Surroundings) (load : List U8 → Option (List ProgramHeader × U64))
    (directory : List U8 → List (List U8)) (argv : List (List U8)) : Except Stop FuzzThread :=
  match argv with
  | _ :: dirPath :: targetPath :: opt :: opts => do
      let corpus ← Stop.lift (Corpus.ofEntries load (directory dirPath))
      let target ← Stop.lift (readElf load targetPath true)
      FuzzThread.dispatch env 100 ⟨corpus, target, opt :: opts, 0⟩
  | _ => .error (.fault .exitFailure)

lemma Corpus.card_free_ofEntries {load : List U8 → Option (List ProgramHeader × U64)}
    {entries : List (List U8)} {c : Corpus} (h : Corpus.ofEntries load entries = .ok c) :
    c.free.card ≤ entries.length := by
  obtain ⟨infos, hinfos, h⟩ := bind_eq_ok_iff.mp h
  split_ifs at h
  obtain rfl := Except.ok.inj h
  rw [← length_mapM hinfos]
  refine le_trans (Finset.card_filter_le _ _) ?_
  rw [Finset.card_range, Corpus.size, List.length_map]

/-- **The program goes on** if there are fewer than a hundred files: whatever the target, the random
numbers and the bounds of the loops, it does not come to its end. -/
theorem main_goes_on (env : Surroundings) (load : List U8 → Option (List ProgramHeader × U64))
    (directory : List U8 → List (List U8)) (argv : List (List U8))
    (h : ∀ dirPath, argv[1]? = some dirPath → (directory dirPath).length < 100) (t : FuzzThread) :
    main env load directory argv ≠ .ok t := by
  intro hmain
  unfold main at hmain
  split at hmain
  · obtain ⟨corpus, hcorpus, hmain⟩ := bind_eq_ok_iff.mp hmain
    obtain ⟨target, -, hmain⟩ := bind_eq_ok_iff.mp hmain
    have hfew := h _ rfl
    have hfree := Corpus.card_free_ofEntries (Stop.lift_eq_ok_iff.mp hcorpus)
    have hcard := FuzzThread.card_free_dispatch hmain
    dsimp only at hcard
    omega
  · cases hmain

/-- A directory of one file. -/
theorem main_goes_on_oneEntry :
    ¬ ∃ t, main (FuzzThread.drawing genRandStream) Tester.passing.load (fun _ => [[0x61]])
      [[0x66], [0x64], [0x74], placeholder] = .ok t := by
  rintro ⟨t, ht⟩
  exact main_goes_on (FuzzThread.drawing genRandStream) Tester.passing.load (fun _ => [[0x61]])
    [[0x66], [0x64], [0x74], placeholder] (fun _ _ => by decide) t ht

end Vemu
